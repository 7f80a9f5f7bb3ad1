import ArmLink.Proofs.FixedPoint
import ArmLink.Proofs.SentOnce

/-!
# The numbers in what is sent

A number goes through up to three hands before it is sent: a conversion of units, a check
that it is finite, and the writing of its digits. Which of the last two comes first decides
what becomes of a number that the conversion has pushed beyond the doubles. Every command
is checked with the arguments that will be written, so such a number is refused and nothing
is sent. The one exception is the height limit. It is made an integer in between, and
an integer is always finite, so there it is not refused: it stops at an end of the range of
integers and is sent.
-/

namespace ArmLink

open ArmLink.Decimal
open ArmLink.Dashboard (Request)
open ArmLink.Motion (Move)
open ArmLink.Robot (metersToMillimeters)
open Binary64 (ofFloat sign_false sign_true value?)

/-! ## Commands as they are written -/

/-- What stands for an argument in a command: an integer as it is, any other number as the nearest
one with three decimals. -/
inductive Argument.Shows : Argument → List Char → Prop where
  | integer {n : ℤ} {cs : List Char} (numeral : Numeral cs n) : Shows (.integer n) cs
  | real {x : Float} {q : ℚ} {cs : List Char} {k : ℤ} (value : rational? x = some q)
      (digits : Fixed 3 cs k) (near : |(k : ℚ) - q * 10 ^ 3| ≤ 1 / 2) : Shows (.real x) cs
  | text {t : String} : Shows (.text t) t.toList

namespace Command

/-- The text is the name, and in brackets what stands for each of the arguments. -/
def Shows (command : Command) (text : String) : Prop :=
  ∃ shown, List.Forall₂ Argument.Shows command.arguments shown ∧
    text.toList = command.name.toList ++ '(' :: [','].intercalate shown ++ [')']

variable {command : Command}

theorem shows_text (h : command.check = .ok ()) : command.Shows command.text := by
  refine ⟨command.arguments.map Argument.chars, ?_, by rw [text, String.toList_ofList]; rfl⟩
  rw [List.forall₂_map_right_iff, List.forall₂_same]
  intro argument hargument
  cases argument with
  | integer n => exact .integer (numeral_integerChars n)
  | text t => exact .text
  | real x =>
      have hfinite := check_eq_ok_iff.1 h x hargument
      rw [isFinite_eq, Option.isSome_iff_exists] at hfinite
      obtain ⟨q, hq⟩ := hfinite
      obtain ⟨k, hdigits, hnear⟩ := fixed_fixedChars hq 3
      exact .real hq hdigits hnear

/-- A command is refused when one of its numbers is none. -/
theorem check_ne_ok_iff :
    command.check ≠ .ok () ↔ ∃ x, .real x ∈ command.arguments ∧ rational? x = none := by
  rw [ne_eq, check_eq_ok_iff]
  simp only [isFinite_eq, not_forall, exists_prop, Bool.not_eq_true, Option.isSome_eq_false_iff,
    Option.isNone_iff_eq_none]

end Command

/-! ## Calls

A call on the dashboard and a motion call have the same fate: their command is refused over
its arguments, and nothing happens, or it is put on the link, if the link takes it. -/

/-- A call ends in a refusal of its arguments. -/
def Refused {α : Type} (result : Except Failure α) : Prop :=
  ∃ fault, result = .error (.argument fault)

theorem Dashboard.Outcome.of_refused {α : Type} {valid : Prop} {now after : Bench}
    {result : Except Failure α} (h : Outcome valid now result after) (hrefused : Refused result) :
    ¬ valid ∧ after = now := by
  obtain ⟨fault, rfl⟩ := hrefused
  cases h with
  | refused _ invalid => exact ⟨invalid, rfl⟩
  | lost isConnection => cases isConnection

theorem Dashboard.Request.refused_iff {limit : ℕ} {request : Request} {b : Bench} {command : Command}
    (hcommand : request.command = .ok command) :
    Refused (request.perform limit b).1 ↔
      ∃ x, .real x ∈ command.arguments ∧ rational? x = none := by
  rw [← Command.check_ne_ok_iff]
  constructor
  · intro hrefused
    have hinvalid := ((perform_outcome limit request b).of_refused hrefused).1
    rwa [Query.isValid_iff (.request request) hcommand] at hinvalid
  · intro hcheck
    rw [perform, hcommand]
    cases hresult : command.check with
    | ok => exact absurd hresult hcheck
    | error failure =>
        obtain ⟨fault, rfl⟩ := check_error hresult
        exact ⟨fault, by simp [call, hresult]⟩

theorem Dashboard.Request.sent_of_not_refused {limit : ℕ} {request : Request} {b : Bench}
    (h : ¬ Refused (request.perform limit b).1) :
    ∃ command, request.command = .ok command ∧ command.check = .ok () ∧
      (request.perform limit b).2.dashboard.sent =
        b.dashboard.sent ++ if b.dashboard.takes then [command.text] else [] := by
  cases hcommand : request.command with
  | error failure =>
      obtain ⟨fault, rfl⟩ := command_error hcommand
      exact absurd ⟨fault, by rw [perform, hcommand]⟩ h
  | ok command =>
      have hcheck : command.check = .ok () := by
        by_contra hne
        exact h ((refused_iff hcommand).2 (Command.check_ne_ok_iff.1 hne))
      refine ⟨command, rfl, hcheck, ?_⟩
      rw [sent_perform, hcommand]
      simp [Except.toOption, Command.texts, hcheck, Except.isOk, Except.toBool]

theorem Bench.sendMotion_outcome (text : String) (b : Bench) :
    ¬ Refused (b.sendMotion text).1 ∧
      (b.sendMotion text).2.motion.sent = b.motion.sent ++ if b.motion.takes then [text] else [] := by
  have hsent := b.motion.sent_send text
  rw [sendMotion]
  cases hsend : b.motion.send text with
  | mk result motion =>
      rw [hsend] at hsent
      cases result with
      | ok =>
          constructor
          · rintro ⟨fault, h⟩
            cases h
          · exact (leftAlone_heardMotion { b with motion } .motion).sent.trans hsent
      | error failure =>
          refine ⟨?_, hsent⟩
          rintro ⟨fault, h⟩
          obtain rfl := Except.error.inj h
          have hreported := congrArg Prod.fst hsend
          rw [Link.send] at hreported
          split at hreported
          · split at hreported <;> cases hreported
          · cases hreported

theorem Motion.Move.send_of_valid {move : Move} (h : move.command.check = .ok ()) (b : Bench) :
    move.send b = b.sendMotion move.command.text := by
  rw [send, h]

theorem Motion.Move.send_of_invalid {move : Move} (h : move.command.check ≠ .ok ()) (b : Bench) :
    ∃ fault, move.send b = (.error (.argument fault), b) := by
  rw [send]
  cases hcheck : move.command.check with
  | ok => exact absurd hcheck h
  | error failure =>
      obtain ⟨fault, rfl⟩ := Dashboard.check_error hcheck
      exact ⟨fault, rfl⟩

/-! ## The height limit -/

/-- Beyond the doubles the range of integers ends, on the side of the sign. -/
theorem Decimal.IsNearest.toInt64_of_infinite {q : ℚ} {x : Float} (h : IsNearest q x)
    (hx : rational? x = none) :
    toInt64 x = if q < 0 then int64.least else int64.greatest := by
  have hroom : (0 : ℚ) < overflow := (abs_nonneg _).trans_lt (rational?_lt_overflow (y := 0.0) (w := 0)
    (by decide +kernel))
  rw [IsNearest] at h
  rw [rational?] at hx
  rw [toInt64]
  cases hparts : ofFloat x with
  | nan => simp [hparts] at h
  | finite => simp [hparts, value?] at hx
  | infinite negative =>
      simp only [hparts] at h
      cases negative with
      | false =>
          rw [sign_false, one_mul] at h
          rw [if_neg (by linarith)]
          rfl
      | true =>
          rw [sign_true, neg_one_mul] at h
          rw [if_pos (by linarith)]
          rfl

theorem Dashboard.Request.limitHeight_command {z : Float} {p : ℚ} (hz : rational? z = some p) :
    ∃ n : ℤ, (Request.limitHeight z).command = .ok ⟨"LimZ", [.integer n]⟩ ∧
      IsNearest (p * 1000) (metersToMillimeters z) ∧
      (∀ q, rational? (metersToMillimeters z) = some q →
        ∃ k : ℤ, |(k : ℚ) - q| ≤ 1 / 2 ∧ n = int64.clamp k) ∧
      (rational? (metersToMillimeters z) = none → n = if p < 0 then int64.least else int64.greatest) := by
  have hthousand : rational? 1000.0 = some 1000 := by decide +kernel
  have hnearest : IsNearest (p * 1000) (metersToMillimeters z) :=
    isNearest_mul hz hthousand
  refine ⟨_, by rw [command, if_pos (by rw [isFinite_eq, hz]; rfl)], hnearest, fun q hq => ?_,
    fun hnone => ?_⟩
  · obtain ⟨k, hk, hnear⟩ := rational?_roundHalfAway hq
    exact ⟨k, hnear, toInt64_of_whole hk⟩
  · have hsame : roundHalfAway (metersToMillimeters z) = metersToMillimeters z := by
      rw [rational?] at hnone
      rw [roundHalfAway]
      split
      · next hparts => simp [hparts, value?] at hnone
      · rfl
    have hsign : p * 1000 < 0 ↔ p < 0 := by
      constructor <;> intro h <;> linarith
    rw [hsame, hnearest.toInt64_of_infinite hnone]
    simp only [hsign]

/-! ## What is sent -/

/-- A call is refused for its arguments exactly when one of the numbers in its command is none, and
then nothing is done; otherwise its command is what the link is sent, if it takes anything, and
every number in it stands there as the nearest with three decimals. The height limit is sent
as the integer nearest to its millimeters, stopped at the ends of the range, and it is
refused only for meters that are no number. -/
theorem Bench.numbers_sent_or_refused (b : Bench) :
    (∀ limit (request : Request),
      let result := (request.perform limit b).1
      let after := (request.perform limit b).2
      (Refused result → after = b) ∧
      (∀ command, request.command = .ok command →
        (Refused result ↔ ∃ x, .real x ∈ command.arguments ∧ rational? x = none)) ∧
      (¬ Refused result → ∃ command, request.command = .ok command ∧
        command.Shows command.text ∧
        after.dashboard.sent =
          b.dashboard.sent ++ if b.dashboard.takes then [command.text] else [])) ∧
    (∀ z, rational? z = none → (Request.limitHeight z).command = .error (.argument (.height z))) ∧
    (∀ z p, rational? z = some p → ∃ n : ℤ,
      (Request.limitHeight z).command = .ok ⟨"LimZ", [.integer n]⟩ ∧
      IsNearest (p * 1000) (metersToMillimeters z) ∧
      (∀ q, rational? (metersToMillimeters z) = some q →
        ∃ k : ℤ, |(k : ℚ) - q| ≤ 1 / 2 ∧ n = int64.clamp k) ∧
      (rational? (metersToMillimeters z) = none →
        n = if p < 0 then int64.least else int64.greatest)) ∧
    ∀ move : Move,
      let result := (move.send b).1
      let after := (move.send b).2
      (Refused result → after = b) ∧
      (Refused result ↔ ∃ x, .real x ∈ move.command.arguments ∧ rational? x = none) ∧
      (¬ Refused result → move.command.Shows move.command.text ∧
        after.motion.sent = b.motion.sent ++ if b.motion.takes then [move.command.text] else []) := by
  refine ⟨fun limit request => ⟨fun hrefused => ?_, fun command hcommand => ?_, fun hsent => ?_⟩,
    fun z hz => ?_, fun z p hz => Request.limitHeight_command hz, fun move => ?_⟩
  · exact ((Dashboard.perform_outcome limit request b).of_refused hrefused).2
  · exact Request.refused_iff hcommand
  · obtain ⟨command, hcommand, hcheck, hsent⟩ := Request.sent_of_not_refused hsent
    exact ⟨command, hcommand, Command.shows_text hcheck, hsent⟩
  · rw [Request.command, if_neg (by rw [isFinite_eq, hz]; decide)]
  · by_cases hcheck : move.command.check = .ok ()
    · obtain ⟨haccepted, hsent⟩ := b.sendMotion_outcome move.command.text
      rw [← move.send_of_valid hcheck] at haccepted hsent
      have hfinite := mt Command.check_ne_ok_iff.2 (not_not.2 hcheck)
      exact ⟨fun h => absurd h haccepted, iff_of_false haccepted hfinite,
        fun _ => ⟨Command.shows_text hcheck, hsent⟩⟩
    · obtain ⟨fault, hsend⟩ := Move.send_of_invalid hcheck b
      have hrefused : Refused (move.send b).1 := ⟨fault, by rw [hsend]⟩
      exact ⟨fun _ => by rw [hsend], iff_of_true hrefused (Command.check_ne_ok_iff.1 hcheck),
        fun h => absurd hrefused h⟩

/-- A height and a move are sent, and a weight that is no number is not. -/
theorem Bench.numbers_sent_or_refused_weight :
    let link := { Link.fresh "down" true with up := true }
    let b : Bench := ⟨link, link, link, .silent⟩
    let move := Move.movJ (.planar 0.2 0.0 0.05 0.0)
    (Request.limitHeight 0.05).command = .ok ⟨"LimZ", [.integer 50]⟩ ∧
      ((Request.payload (0.0 / 0.0) 0.1).perform 500 b).2 = b ∧
      move.command.Shows move.command.text ∧
      (move.send b).2.motion.sent = [move.command.text] := by
  intro link b move
  obtain ⟨hrequest, -, hheight, hmove⟩ := numbers_sent_or_refused b
  refine ⟨?_, ?_, ?_⟩
  · obtain ⟨p, hp⟩ : ∃ p, rational? 0.05 = some p := Option.isSome_iff_exists.1 (by decide +kernel)
    obtain ⟨n, hcommand, -, hn, -⟩ := hheight 0.05 p hp
    obtain ⟨k, hnear, rfl⟩ := hn 50 (by decide +kernel)
    obtain ⟨hlow, hhigh⟩ := abs_le.1 hnear
    have hk : k = 50 := by
      have habove : (49 : ℚ) < k := by linarith
      have hbelow : (k : ℚ) < 51 := by linarith
      norm_cast at habove hbelow
      omega
    rw [hcommand, hk]
    rfl
  · obtain ⟨hsame, hrefused, -⟩ := hrequest 500 (.payload (0.0 / 0.0) 0.1)
    exact hsame ((hrefused _ rfl).2 ⟨0.0 / 0.0, List.mem_cons_self, by decide +kernel⟩)
  · obtain ⟨-, hrefused, hsent⟩ := hmove move
    refine hsent (mt hrefused.1 ?_)
    rintro ⟨x, hx, hnone⟩
    simp only [move, Move.command, Motion.cartesian, List.mem_cons, Argument.real.injEq,
      List.not_mem_nil, or_false] at hx
    rcases hx with rfl | rfl | rfl | rfl <;>
      · revert hnone
        decide +kernel

/-- A height beyond the doubles once it is in millimeters is sent as the largest integer there is. -/
theorem Bench.height_is_sent_saturated :
    let link := { Link.fresh "down" true with up := true }
    let b : Bench := ⟨link, link, link, .silent⟩
    (1e306 : Float).isFinite = true ∧ (metersToMillimeters 1e306).isFinite = false ∧
      ((Request.limitHeight 1e306).perform 500 b).2.dashboard.sent =
        ["LimZ(9223372036854775807)"] := by
  decide +kernel

end ArmLink
