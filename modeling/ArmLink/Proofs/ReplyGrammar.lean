import Mathlib.Data.List.TakeWhile
import ArmLink.Proofs.Numerals
import ArmLink.Reply

/-!
# Which lines are replies

A line is a reply when what is left of it without padding is a status, a payload
in braces and an echo, put together as `Parts.text` puts them together. Said like
this a line might be taken apart in many ways, since payload and echo may hold the
very characters that separate them. What makes the parts unique is one condition
on the echo: no closing brace of it has a comma behind it. The reader looks for
that place from the end of the line, and `split?_eq_some_iff` says that it finds
the parts and that there are no others.

The condition is the reader's and not the controller's. A command with a list in
braces and another argument behind it is echoed as it was sent, and then the line
is taken apart inside the echo, at the last place where a brace has a comma behind
it.
-/

namespace ArmLink.Reply

open ArmLink.Decimal (Figures Numeral int32 integerChars numeral_integerChars readInteger_ok_iff)
open ArmLink.Text (decimalDigits isDecimalDigit strip trim)

/-- What separates the payload from the echo. -/
def separator : List Char := ['\x7d', ',']

/-- The parts of a reply. -/
structure Parts where
  field : List Char
  payload : List Char
  echo : List Char
  deriving DecidableEq, Repr

def Parts.text (parts : Parts) : List Char :=
  parts.field ++ [',', '\x7b'] ++ parts.payload ++ separator ++ parts.echo ++ [terminator]

/-- The parts are those of a reply with this status. -/
structure Parts.Means (parts : Parts) (status : Int) : Prop where
  numeral : Numeral parts.field status
  unplussed : '+' ∉ parts.field
  bounded : int32.holds status
  unsplit : ¬ separator <:+: parts.echo

/-! ## Payload and echo -/

theorem splitReversed?_skip {c : Char} {cs after : List Char}
    (h : ∀ rest, c :: cs ≠ ',' :: '\x7d' :: rest) :
    splitReversed? after (c :: cs) = splitReversed? (c :: after) cs := by
  rw [splitReversed?]
  intro rest hc hcs
  exact h rest (by rw [hc, hcs])

/-- Read backwards, a text without the separator is passed over as a whole. -/
theorem splitReversed?_append {echo payload after : List Char}
    (h : ¬ separator.reverse <:+: echo) :
    splitReversed? after (echo ++ separator.reverse ++ payload) =
      some (payload.reverse, echo.reverse ++ after) := by
  induction echo generalizing after with
  | nil => rfl
  | cons c rest ih =>
      have hrest : ¬ separator.reverse <:+: rest :=
        fun hfound => h (hfound.trans (List.suffix_cons c rest).isInfix)
      rw [List.cons_append, List.cons_append, splitReversed?_skip, ih hrest]
      · simp
      -- The separator does not begin at `c`, not even when it would end behind the echo.
      intro tail hsplit
      cases rest with
      | nil => simp [separator] at hsplit
      | cons d rest =>
          obtain ⟨rfl, rfl, -⟩ : c = ',' ∧ d = '\x7d' ∧ _ := by simpa using hsplit
          exact h ⟨[], rest, rfl⟩

theorem splitReversed?_eq_some {after cs payload echo : List Char}
    (h : splitReversed? after cs = some (payload, echo)) :
    ∃ passed, cs = passed ++ separator.reverse ++ payload.reverse ∧
      echo = passed.reverse ++ after ∧ ¬ separator.reverse <:+: passed := by
  fun_induction splitReversed? after cs with
  | case1 after rest =>
      obtain ⟨rfl, rfl⟩ := by simpa using h
      exact ⟨[], by simp [separator], rfl, by simp [separator]⟩
  | case2 after c rest hnext ih =>
      obtain ⟨passed, rfl, rfl, hpassed⟩ := ih h
      refine ⟨c :: passed, rfl, by simp, fun hfound => ?_⟩
      rcases List.infix_cons_iff.1 hfound with ⟨tail, htail⟩ | hfound
      · obtain ⟨rfl, rfl⟩ : ',' = c ∧ '\x7d' :: tail = passed := by simpa [separator] using htail
        exact hnext _ rfl rfl
      · exact hpassed hfound
  | case3 => cases h

/-- Payload and echo are separated at the last place where they can be. -/
theorem splitBody?_eq_some_iff {cs payload echo : List Char} :
    splitBody? cs = some (payload, echo) ↔
      cs = payload ++ separator ++ echo ++ [terminator] ∧ ¬ separator <:+: echo := by
  rw [splitBody?]
  constructor
  · intro h
    split at h
    · next c rest hcs =>
        split at h
        · next hc =>
            obtain ⟨passed, rfl, rfl, hpassed⟩ := splitReversed?_eq_some h
            have hback := congrArg List.reverse hcs
            refine ⟨?_, fun hfound => hpassed (List.reverse_infix.1 (by simpa using hfound))⟩
            simpa [hc] using hback
        · cases h
    · cases h
  · rintro ⟨rfl, hecho⟩
    have hreversed : (payload ++ separator ++ echo ++ [terminator]).reverse =
        terminator :: (echo.reverse ++ separator.reverse ++ payload.reverse) := by simp
    rw [hreversed]
    show (if terminator = terminator then _ else _) = _
    rw [if_pos rfl, splitReversed?_append fun hfound => hecho (List.reverse_infix.1 hfound)]
    simp

/-! ## The status field -/

/-- Digits of any script, with or without a minus sign: the shape of a status field. -/
def IsField (field : List Char) : Prop :=
  ∃ ds, ds ≠ [] ∧ (∀ c ∈ ds, isDecimalDigit c = true) ∧ (field = ds ∨ field = '-' :: ds)

theorem isDecimalDigit_of_isDigit {c : Char} (h : c.isDigit = true) : isDecimalDigit c = true := by
  refine Text.Ranges.has_iff.2 ⟨(0x30, 0x39), List.mem_cons_self, ?_⟩
  exact Decimal.isDigit_iff.1 h

theorem not_mem_digits {c : Char} (hc : isDecimalDigit c = false) {ds : List Char}
    (hds : ∀ d ∈ ds, isDecimalDigit d = true) : c ∉ ds := fun hmem => by
  rw [hds c hmem] at hc
  cases hc

/-- Only a field of ASCII digits has a value, and every numeral without a plus sign is a field. -/
theorem isField_iff {field : List Char} {status : Int} :
    IsField field ∧ Decimal.readInteger int32 field = .ok status ↔
      Numeral field status ∧ '+' ∉ field ∧ int32.holds status := by
  rw [readInteger_ok_iff (by decide) (by decide)]
  constructor
  · rintro ⟨⟨ds, -, hds, hfield⟩, hnumeral, hholds⟩
    have hplus : '+' ∉ ds := not_mem_digits (by decide) hds
    refine ⟨hnumeral, ?_, hholds⟩
    rcases hfield with rfl | rfl <;> simp [hplus]
  · rintro ⟨hnumeral, hplus, hholds⟩
    have hscript {ds : List Char} {n : Nat} (h : Figures ds n) :
        ∀ c ∈ ds, isDecimalDigit c = true := fun c hc => isDecimalDigit_of_isDigit (h.2.1 c hc)
    refine ⟨?_, hnumeral, hholds⟩
    cases hnumeral with
    | plain digits => exact ⟨_, digits.1, hscript digits, .inl rfl⟩
    | plus => exact absurd List.mem_cons_self hplus
    | minus digits => exact ⟨_, digits.1, hscript digits, .inr rfl⟩

theorem splitStatus?_append {field rest : List Char} (hfield : IsField field)
    (hrest : ∀ c ∈ rest.head?, isDecimalDigit c = false) :
    splitStatus? (field ++ rest) = some (field, rest) := by
  obtain ⟨ds, hne, hds, hfield⟩ := hfield
  have htake : (ds ++ rest).takeWhile isDecimalDigit = ds := by
    rw [List.takeWhile_append_of_pos hds]
    cases rest with
    | nil => simp
    | cons c rest => simp [hrest c rfl]
  have hdrop : (ds ++ rest).dropWhile isDecimalDigit = rest := by
    rw [List.dropWhile_append_of_pos hds]
    cases rest with
    | nil => simp
    | cons c rest => simp [hrest c rfl]
  rcases hfield with rfl | rfl
  · have hminus : ∀ tail, field ++ rest ≠ '-' :: tail := by
      intro tail h
      obtain ⟨d, ds, rfl⟩ := List.exists_cons_of_ne_nil hne
      obtain ⟨rfl, -⟩ := List.cons.inj h
      exact absurd (hds '-' List.mem_cons_self) (by decide)
    rw [splitStatus?.eq_def]
    split
    next sign tail heq =>
      split at heq
      · next hcs => exact absurd hcs (hminus _)
      · obtain ⟨rfl, rfl⟩ := Prod.mk.inj heq
        simp [htake, hdrop, hne]
  · simp [splitStatus?, htake, hdrop, hne]

theorem splitStatus?_eq_some {cs field rest : List Char}
    (h : splitStatus? cs = some (field, rest)) : cs = field ++ rest ∧ IsField field := by
  have hdigits (tail : List Char) : ∀ c ∈ tail.takeWhile isDecimalDigit,
      isDecimalDigit c = true := fun _ hc => List.mem_takeWhile_imp hc
  rw [splitStatus?.eq_def] at h
  split at h
  next sign tail heq =>
    by_cases hne : tail.takeWhile isDecimalDigit = []
    · simp [hne] at h
    · obtain ⟨rfl, rfl⟩ := by simpa [hne] using h
      split at heq
      · obtain ⟨rfl, rfl⟩ := Prod.mk.inj heq
        exact ⟨by simp, _, hne, hdigits _, .inr rfl⟩
      · obtain ⟨rfl, rfl⟩ := Prod.mk.inj heq
        exact ⟨by simp, _, hne, hdigits _, .inl rfl⟩

/-! ## Whole lines -/

theorem split?_eq_some_iff {cs : List Char} {parts : Parts} :
    split? cs = some (parts.field, parts.payload, parts.echo) ↔
      parts.text = cs ∧ IsField parts.field ∧ ¬ separator <:+: parts.echo := by
  obtain ⟨field, payload, echo⟩ := parts
  rw [split?]
  constructor
  · intro h
    split at h
    · next status rest hstatus =>
        obtain ⟨⟨payload', echo'⟩, hbody, hparts⟩ := Option.map_eq_some_iff.1 h
        obtain ⟨rfl, rfl, rfl⟩ := by simpa using hparts
        obtain ⟨rfl, hfield⟩ := splitStatus?_eq_some hstatus
        obtain ⟨rfl, hecho⟩ := splitBody?_eq_some_iff.1 hbody
        exact ⟨by simp [Parts.text], hfield, hecho⟩
    · cases h
  · rintro ⟨rfl, hfield, hecho⟩
    have htext : Parts.text ⟨field, payload, echo⟩ =
        field ++ ',' :: '\x7b' :: (payload ++ separator ++ echo ++ [terminator]) := by
      simp [Parts.text]
    have hcomma : isDecimalDigit ',' = false := by decide
    rw [htext, splitStatus?_append hfield (by simp [hcomma])]
    simp only [splitBody?_eq_some_iff.2 ⟨rfl, hecho⟩, Option.map_some]

/-- The reply that parts come to. -/
def Parts.reply (parts : Parts) (status : Int) : Reply :=
  ⟨status, String.ofList (trim parts.payload), String.ofList (trim parts.echo),
    String.ofList parts.text⟩

theorem Parts.Means.split {parts : Parts} {status : Int} (h : parts.Means status) :
    split? parts.text = some (parts.field, parts.payload, parts.echo) ∧
      Decimal.readInteger int32 parts.field = .ok status := by
  obtain ⟨hfield, hread⟩ := isField_iff.2 ⟨h.numeral, h.unplussed, h.bounded⟩
  exact ⟨split?_eq_some_iff.2 ⟨rfl, hfield, h.unsplit⟩, hread⟩

/-- A text has no more than one way to be taken apart. -/
theorem Parts.Means.unique {parts other : Parts} {status status' : Int} (h : parts.Means status)
    (hother : other.Means status') (htext : other.text = parts.text) :
    other = parts ∧ status' = status := by
  obtain ⟨hsplit, hread⟩ := h.split
  obtain ⟨hsplit', hread'⟩ := hother.split
  obtain ⟨hfield, hpayload, hecho⟩ : parts.field = other.field ∧
      parts.payload = other.payload ∧ parts.echo = other.echo := by
    simpa [htext, hsplit] using hsplit'
  rw [← hfield, hread] at hread'
  refine ⟨?_, (Except.ok.inj hread').symm⟩
  cases parts
  cases other
  simp_all

theorem parse_of_means {line : String} {parts : Parts} {status : Int} (h : parts.Means status)
    (htext : parts.text = strip isPadding line.toList) :
    parse line = .ok (parts.reply status) := by
  obtain ⟨hsplit, hread⟩ := h.split
  rw [parse, ← htext]
  simp only [hsplit, hread, Parts.reply]

/-- A line that cannot be taken apart is refused, and the fault has it as it came. -/
theorem parse_error {line : String}
    (h : ¬ ∃ (parts : Parts) (status : Int), parts.text = strip isPadding line.toList ∧
      parts.Means status) : ∃ fault, parse line = .error (.malformed fault line) := by
  rw [parse]
  cases hsplit : split? (strip isPadding line.toList) with
  | none => exact ⟨.shape, rfl⟩
  | some found =>
      obtain ⟨field, payload, echo⟩ := found
      obtain ⟨htext, hfield, hecho⟩ := (@split?_eq_some_iff _ ⟨field, payload, echo⟩).1 hsplit
      cases hread : Decimal.readInteger int32 field with
      | error fault => exact ⟨.status fault, by simp [hread]⟩
      | ok status =>
          obtain ⟨hnumeral, hplus, hholds⟩ := isField_iff.1 ⟨hfield, hread⟩
          exact absurd ⟨_, status, htext, ⟨hnumeral, hplus, hholds, hecho⟩⟩ h

/-- A line is a reply exactly when it can be taken apart without its padding. There is then one way
to do so, and the reply is made of those parts; any other line comes back as it was. -/
theorem parse_accepts_exactly (line : String) :
    let body := strip isPadding line.toList
    ((∃ reply, parse line = .ok reply) ↔
      ∃ (parts : Parts) (status : Int), parts.text = body ∧ parts.Means status) ∧
    (∀ (parts : Parts) (status : Int), parts.text = body → parts.Means status →
      parse line = .ok ⟨status, String.ofList (trim parts.payload),
        String.ofList (trim parts.echo), String.ofList body⟩ ∧
      ∀ (other : Parts) (status' : Int), other.text = body → other.Means status' →
        other = parts ∧ status' = status) ∧
    ((¬ ∃ reply, parse line = .ok reply) → ∃ fault, parse line = .error (.malformed fault line)) := by
  intro body
  have hrefused (h : ¬ ∃ reply, parse line = .ok reply) :
      ∃ fault, parse line = .error (.malformed fault line) :=
    parse_error fun ⟨parts, status, htext, hmeans⟩ => h ⟨_, parse_of_means hmeans htext⟩
  refine ⟨⟨fun ⟨reply, hreply⟩ => ?_, fun ⟨parts, status, htext, hmeans⟩ => ?_⟩,
    fun parts status htext hmeans => ⟨?_, fun other status' hother hmeans' => ?_⟩, hrefused⟩
  · by_contra hnone
    obtain ⟨fault, hfault⟩ := parse_error hnone
    rw [hreply] at hfault
    cases hfault
  · exact ⟨_, parse_of_means hmeans htext⟩
  · rw [parse_of_means hmeans htext, Parts.reply, htext]
  · exact hmeans.unique hmeans' (hother.trans htext.symm)

/-- A separator in the payload, a zero in front of the status and padding around it all. -/
theorem parse_accepts_exactly_padded :
    let line := " -07,\x7ba\x7d,b\x7d, Echo() ;\r\x00"
    parse line = .ok ⟨-7, "a\x7d,b", "Echo()", "-07,\x7ba\x7d,b\x7d, Echo() ;"⟩ := by
  intro line
  obtain ⟨-, hread, -⟩ := parse_accepts_exactly line
  have hmeans : Parts.Means ⟨['-', '0', '7'], "a\x7d,b".toList, " Echo() ".toList⟩ (-7) :=
    { numeral := .minus (by decide : Figures ['0', '7'] 7)
      unplussed := by decide
      bounded := by decide
      unsplit := by decide +kernel }
  obtain ⟨hreply, -⟩ := hread _ _ (by decide +kernel) hmeans
  exact hreply.trans (congrArg Except.ok (by decide +kernel))

/-! ## Written replies -/

/-- A status begins with a character that is no padding. -/
theorem integerChars_head (status : Int) :
    ∃ a rest, integerChars status = a :: rest ∧ isPadding a = false := by
  rw [Decimal.integerChars]
  split
  · exact ⟨_, _, rfl, by decide⟩
  · obtain ⟨c, cs, hdigits⟩ := List.exists_cons_of_ne_nil (Decimal.digits_ne_nil status.natAbs)
    obtain ⟨d, hd, rfl⟩ := Decimal.digits_all status.natAbs c (hdigits ▸ List.mem_cons_self)
    have hdigit : ∀ d < 10, isPadding (Text.digitChar d) = false := by decide
    exact ⟨_, cs, hdigits, hdigit d hd⟩

theorem plus_not_mem_integerChars (n : Int) : '+' ∉ integerChars n := by
  have hdigits (m : Nat) : '+' ∉ Decimal.digits m := fun hmem =>
    absurd ((Decimal.figures_digits m).2.1 '+' hmem) (by decide)
  rw [Decimal.integerChars]
  split <;> simp [hdigits]

section

variable {status : Int} {payload echo : String}

theorem toList_written : (written status payload echo).toList =
    Parts.text ⟨integerChars status, payload.toList, echo.toList⟩ := by
  simp [written, Parts.text, separator, String.toList_ofList]

theorem means_written (hstatus : int32.holds status) (hecho : ¬ separator <:+: echo.toList) :
    Parts.Means ⟨integerChars status, payload.toList, echo.toList⟩ status :=
  ⟨numeral_integerChars status, plus_not_mem_integerChars status, hstatus, hecho⟩

theorem strip_written {padding : List Char} (hpadding : ∀ c ∈ padding, isPadding c = true) :
    strip isPadding (padding ++ (written status payload echo).toList) =
      (written status payload echo).toList := by
  obtain ⟨a, rest, hhead, ha⟩ := integerChars_head status
  have hends : (written status payload echo).toList =
      a :: (rest ++ ',' :: '\x7b' :: (payload.toList ++ separator ++ echo.toList)) ++
        [terminator] := by
    rw [toList_written, Parts.text, hhead]
    simp
  have hdrop : strip isPadding (padding ++ (written status payload echo).toList) =
      strip isPadding (written status payload echo).toList := by
    unfold strip
    rw [List.dropWhile_append_of_pos hpadding]
  rw [hdrop, hends]
  exact Text.strip_of_ends ha (by decide)

/-- A written reply reads back as what it was written from, but for blanks around its payload
and its echo, whatever padding is in front. -/
theorem parse_padded {padding : List Char} (hstatus : int32.holds status)
    (hecho : ¬ separator <:+: echo.toList) (hpadding : ∀ c ∈ padding, isPadding c = true) :
    parse (String.ofList (padding ++ (written status payload echo).toList)) =
      .ok ⟨status, Text.trimmed payload, Text.trimmed echo, written status payload echo⟩ := by
  have htext : Parts.text ⟨integerChars status, payload.toList, echo.toList⟩ =
      strip isPadding (String.ofList (padding ++ (written status payload echo).toList)).toList := by
    rw [String.toList_ofList, strip_written hpadding, toList_written]
  rw [parse_of_means (means_written hstatus hecho) htext, Parts.reply, ← toList_written,
    String.ofList_toList]
  rfl

theorem parse_written_of_unsplit (hstatus : int32.holds status)
    (hecho : ¬ separator <:+: echo.toList) :
    parse (written status payload echo) =
      .ok ⟨status, Text.trimmed payload, Text.trimmed echo, written status payload echo⟩ := by
  have hread : parse (String.ofList ([] ++ (written status payload echo).toList)) = _ :=
    parse_padded hstatus hecho (by simp)
  rwa [List.nil_append, String.ofList_toList] at hread

/-- If the separator is somewhere in an echo, then there is a last place where it is. -/
theorem exists_last_separator {cs : List Char} (h : separator <:+: cs) :
    ∃ front back, cs = front ++ separator ++ back ∧ ¬ separator <:+: back := by
  obtain ⟨front, back, rfl⟩ := h
  induction hlength : back.length using Nat.strongRecOn generalizing front back with
  | _ n ih =>
      by_cases hback : separator <:+: back
      · obtain ⟨middle, rest, rfl⟩ := hback
        have hshort : rest.length < n := by simp [← hlength, separator]; omega
        obtain ⟨front', back', heq, hlast⟩ :=
          ih rest.length hshort (front ++ separator ++ middle) rest rfl
        exact ⟨front', back', by simpa using heq, hlast⟩
      · exact ⟨front, back, rfl, hback⟩

theorem length_trim_le (cs : List Char) : (trim cs).length ≤ cs.length := by
  have hdrop (xs : List Char) : (xs.dropWhile Text.isBlank).length ≤ xs.length :=
    (List.dropWhile_suffix _).length_le
  rw [trim, strip, List.length_reverse]
  have := hdrop (cs.dropWhile Text.isBlank).reverse
  rw [List.length_reverse] at this
  exact this.trans (hdrop cs)

/-- An echo is read back as it was written exactly when the separator is nowhere in it. Otherwise
it is taken to begin behind the last separator, and all in front of that to be the payload. -/
theorem echo_begins_behind_last_separator (hstatus : int32.holds status)
    (hpayload : Text.trimmed payload = payload) (hecho : Text.trimmed echo = echo) :
    let line := written status payload echo
    (parse line = .ok ⟨status, payload, echo, line⟩ ↔ ¬ separator <:+: echo.toList) ∧
    ∀ front back : String, echo = front ++ "\x7d," ++ back → ¬ separator <:+: back.toList →
      parse line = .ok ⟨status, Text.trimmed (payload ++ "\x7d," ++ front), Text.trimmed back,
        line⟩ := by
  intro line
  have hbehind (front back : String) (hsplit : echo = front ++ "\x7d," ++ back)
      (hback : ¬ separator <:+: back.toList) :
      parse line = .ok ⟨status, Text.trimmed (payload ++ "\x7d," ++ front), Text.trimmed back,
        line⟩ := by
    -- The same line is written for the longer payload and the shorter echo.
    have hline : line = written status (payload ++ "\x7d," ++ front) back := by
      rw [show line = written status payload echo from rfl, hsplit]
      simp [written]
    rw [hline]
    exact parse_written_of_unsplit hstatus hback
  refine ⟨⟨fun hread hfound => ?_, fun hunsplit => ?_⟩, hbehind⟩
  · obtain ⟨front, back, hsplit, hback⟩ := exists_last_separator hfound
    have hparts : echo = String.ofList front ++ "\x7d," ++ String.ofList back := by
      rw [← String.toList_inj, hsplit]
      simp [separator]
    rw [hbehind _ _ hparts (by simpa using hback)] at hread
    have hshort : Text.trimmed (String.ofList back) = echo := by
      injection hread with hread
      injection hread
    have hlength := congrArg (fun text : String => text.toList.length) hshort
    have hle := length_trim_le back
    simp [Text.trimmed, hsplit, separator] at hlength
    omega
  · rw [parse_written_of_unsplit hstatus hunsplit, hpayload, hecho]

/-- A list in braces is no harm as the last argument, and takes the line apart as an earlier one. -/
theorem echo_begins_behind_last_separator_braces :
    let harmless := "SetCoils(0,1000,3,\x7b1,0,1\x7d)"
    let harmful := "SetCoils(\x7b1,0,1\x7d,0)"
    parse (written 0 "" harmless) = .ok ⟨0, "", harmless, written 0 "" harmless⟩ ∧
      parse (written 0 "" harmful) =
        .ok ⟨0, "\x7d,SetCoils(\x7b1,0,1", "0)", written 0 "" harmful⟩ := by
  intro harmless harmful
  have hstatus : int32.holds 0 := by decide
  have hpayload : Text.trimmed "" = "" := by decide +kernel
  have hharmless : Text.trimmed harmless = harmless := by decide +kernel
  have hharmful : Text.trimmed harmful = harmful := by decide +kernel
  obtain ⟨hgood, -⟩ := echo_begins_behind_last_separator hstatus hpayload hharmless
  obtain ⟨-, hbad⟩ := echo_begins_behind_last_separator hstatus hpayload hharmful
  refine ⟨hgood.2 (by decide +kernel), ?_⟩
  rw [hbad "SetCoils(\x7b1,0,1" "0)" (by decide +kernel) (by decide +kernel)]
  exact congrArg Except.ok (by decide +kernel)

/-- What a reply echoes is not read back whatever the command was: a list in braces with another
argument behind it is enough. -/
theorem brace_list_can_split_echo :
    ¬ ∀ (status : Int) (payload echo : String), int32.holds status →
      Text.trimmed payload = payload → (∀ c ∈ payload.toList, c ≠ '\x7b' ∧ c ≠ '\x7d') →
      Text.trimmed echo = echo → echo ≠ "" → terminator ∉ echo.toList →
      parse (written status payload echo) =
        .ok ⟨status, payload, echo, written status payload echo⟩ := by
  intro hall
  have hread := hall 0 "" "SetCoils(\x7b1,0,1\x7d,0)" (by decide) (by decide +kernel) (by simp)
    (by decide +kernel) (by decide +kernel) (by decide +kernel)
  have hecho : (parse (written 0 "" "SetCoils(\x7b1,0,1\x7d,0)")).toOption.map Reply.echo =
      some "0)" := by decide +kernel
  rw [hread] at hecho
  exact absurd hecho (by decide +kernel)

end

end ArmLink.Reply
