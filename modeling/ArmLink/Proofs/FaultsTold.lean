import ArmLink.Proofs.LastTold
import ArmLink.Proofs.LineInFront
import ArmLink.Proofs.WatchCourse

/-!
# Which faults are told

Faults that were read have two ways to go: they are cleared on the controller, and a
line is written about them. The second waits for the first. When the clearing fails,
for whatever reason, the look is over with the report in hand and the monitor not
asked. A fault that the controller does not let go is then read by every look, and
who reads the lines never hears of it.

Whether a fault is news is a matter of the lines, so this is said of the lines and of
nothing that only a watch can see: news is what differs from the last line about
faults. `Adds` says what a moment adds to them, and `Current`, which every moment
keeps, ties the last line about faults to the memory of the monitor. Which lines are
about faults is told by their text, as a reader would do it; a time stands in front
of the kind, and no number has a comma in it.
-/

namespace ArmLink

namespace Record

open ArmLink.Json (Value memberChars numberChars stringChars)
open ArmLink.Robot (Mode)

/-- What stands between the time and the faults of a line about faults. -/
def faultMark : List Char :=
  ",\"type\":\"fault\",".toList

/-- Whether a line is about faults. -/
def isAboutFaults (line : String) : Bool :=
  faultMark.isPrefixOf (line.toList.dropWhile (· != ','))

theorem isAboutFaults_ofList {head : List Char} (h : ',' ∉ head) (tail : List Char) :
    isAboutFaults (String.ofList (head ++ ',' :: tail)) = faultMark.isPrefixOf (',' :: tail) := by
  have hhead : ∀ c ∈ head, (c != ',') = true := by
    intro c hc
    rw [bne_iff_ne]
    rintro rfl
    exact h hc
  rw [isAboutFaults, String.toList_ofList, List.dropWhile_append_of_pos hhead,
    List.dropWhile_cons_of_neg (by decide)]

theorem comma_not_mem_numeral {number : List Char} (h : number ⊆ Decimal.numerals) :
    ',' ∉ number :=
  fun hc => absurd (h hc) (by decide)

theorem isAboutFaults_object (time : Float) (key : String) (value : Value)
    (rest : List (String × Value)) :
    isAboutFaults (Value.render (.object (("stime", .number time) :: (key, value) :: rest))) =
      faultMark.isPrefixOf (memberChars ((key, value) :: rest)) := by
  have hkey : ',' ∉ '\x7b' :: stringChars "stime" := by decide +kernel
  have htime : ',' ∉ ':' :: numberChars time :=
    List.not_mem_cons_of_ne_of_not_mem (by decide)
      (comma_not_mem_numeral (Json.numberChars_subset time))
  rw [Value.render]
  simp only [Value.chars, memberChars]
  exact isAboutFaults_ofList (fun hc => (List.mem_append.1 hc).elim hkey htime) _

theorem isAboutFaults_faultLine (time : Float) (report : Fault.Report) :
    isAboutFaults (faultLine time report) = true := by
  rw [faultLine, isAboutFaults_object]
  simp only [memberChars, Value.chars]
  exact List.isPrefixOf_iff_prefix.2 ⟨_, rfl⟩

theorem isAboutFaults_modeLine (time : Float) (mode : Mode) :
    isAboutFaults (modeLine time mode) = false := by
  have htype : stringChars "type" = "\"type\"".toList := by decide +kernel
  have hkind : stringChars "robot_mode" = "\"robot_mode\"".toList := by decide +kernel
  rw [modeLine, isAboutFaults_object]
  simp only [memberChars, Value.chars, htype, hkind]
  rfl

/-- A line that is written in parts. -/
theorem isAboutFaults_parts {front number kind : List Char} (hfront : ',' ∉ front)
    (hnumber : number ⊆ Decimal.numerals) (hkind : kind.head? = some ',')
    (joints between pose last : List Char) :
    isAboutFaults (String.ofList (front ++ number ++ kind ++ joints ++ between ++ pose ++ last)) =
      faultMark.isPrefixOf (kind ++ (joints ++ (between ++ (pose ++ last)))) := by
  obtain ⟨rest, rfl⟩ := List.head?_eq_some_iff.1 hkind
  simp only [List.append_assoc, List.cons_append]
  rw [← List.append_assoc]
  exact isAboutFaults_ofList
    (fun hc => (List.mem_append.1 hc).elim hfront (comma_not_mem_numeral hnumber)) _

theorem isAboutFaults_jointLine (decimals : Nat) (time : Float) (s : Sample) :
    isAboutFaults (jointLine decimals time s) = false := by
  -- The texts between the parts are too long to be unfolded along the way, hence not `rw`.
  refine (isAboutFaults_parts (by decide) (Decimal.fixedChars_subset 6 time) (by decide)
    _ _ _ _).trans ?_
  rfl

end Record

namespace Watch

/-- A look at the faults reads this report, and there are some in it. -/
structure Reads (w : Watch) (i : Interludes) (report : Fault.Report) : Prop where
  well : w.arm.isWell = true
  faulty : (w.checking i).isInMode .error = true
  read : (w.querying i).faultReport.1 = .ok report
  nonempty : report ≠ []

section

variable {w after : Watch}

/-- The last line about faults. -/
def lastFaultLine? (w : Watch) : Option String :=
  (w.lines.filter Record.isAboutFaults).getLast?

theorem lastFaultLine?_concat {line : String} (hlines : after.lines = w.lines ++ [line])
    (habout : Record.isAboutFaults line = true) : after.lastFaultLine? = some line := by
  rw [lastFaultLine?, hlines, List.filter_append, List.filter_cons_of_pos habout, List.filter_nil]
  exact List.getLast?_concat

theorem lastFaultLine?_concat_other {line : String} (hlines : after.lines = w.lines ++ [line])
    (habout : Record.isAboutFaults line = false) : after.lastFaultLine? = w.lastFaultLine? := by
  rw [lastFaultLine?, hlines, List.filter_append,
    List.filter_cons_of_neg (Bool.eq_false_iff.1 habout), List.filter_nil, List.append_nil]
  rfl

/-! ## What a moment adds to the lines -/

/-- What a moment adds to the lines, and what is known of the faults behind it. Faults are told only
by a look that read and cleared them. -/
inductive Adds (w : Watch) (m : Moment) (after : Watch) : Prop where
  | nothing (lines : after.lines = w.lines)
      (known : after.monitor.knownFaults = w.monitor.knownFaults)
  | other {line : String} (about : Record.isAboutFaults line = false)
      (lines : after.lines = w.lines ++ [line])
      (known : after.monitor.knownFaults = w.monitor.knownFaults)
  | faults {time : Float} {report : Fault.Report}
      (grounds : report = [] ∨
        ∃ i answer, m = .faults i ∧ w.Reads i report ∧ (w.cleared i).1 = .ok answer)
      (lines : after.lines = w.lines ++ [Record.faultLine time report])
      (known : after.monitor.knownFaults = Fault.Report.ids report)

theorem adds_lookAtJoints (w : Watch) : w.Adds .joints w.lookAtJoints := by
  have hknown : (w.monitor.admitSample w.arm.clock w.sample).2.knownFaults =
      w.monitor.knownFaults :=
    congrArg (Option.getD · []) (w.monitor.admitSample_keeps _ _).2
  rw [lookAtJoints]
  split
  · simp only
    split
    · exact .other (Record.isAboutFaults_jointLine _ _ _) rfl hknown
    · exact .nothing rfl hknown
  · exact .nothing rfl rfl

theorem adds_lookAtMode (w : Watch) : w.Adds .mode w.lookAtMode := by
  rw [lookAtMode]
  split
  · next mode _ _ =>
      have hknown : (w.monitor.admitMode mode).2.knownFaults = w.monitor.knownFaults :=
        congrArg (Option.getD · []) (w.monitor.admitMode_keeps mode)
      simp only
      split
      · exact .other (Record.isAboutFaults_modeLine _ _) rfl hknown
      · exact .nothing rfl hknown
  · exact .nothing rfl rfl

theorem adds_tellFaults (w : Watch) {m : Moment} (arm : Arm) {report : Fault.Report}
    (hgrounds : report = [] ∨
      ∃ i answer, m = .faults i ∧ w.Reads i report ∧ (w.cleared i).1 = .ok answer) :
    w.Adds m ({ w with arm }.tellFaults report) := by
  have hknown := w.monitor.knownFaults_admitFaults report
  rw [tellFaults]
  simp only
  split
  · exact .faults hgrounds rfl hknown
  · next hheld =>
      -- A report is held back only if it is known already, so it changes nothing.
      have hsame : w.monitor.knownFaults = Fault.Report.ids report := by
        by_contra hnews
        exact hheld ((w.monitor.admitFaults_iff report).1 hnews)
      exact .nothing rfl (hknown.trans hsame.symm)

theorem adds_lookAtFaultsAmid (w : Watch) (i : Interludes) :
    w.Adds (.faults i) (w.lookAtFaultsAmid i) := by
  rw [lookAtFaultsAmid]
  split
  · next well =>
      split
      · next faulty =>
          split
          · exact .nothing rfl rfl
          · next report read =>
              split
              · next hempty => exact w.adds_tellFaults _ (.inl (List.isEmpty_iff.1 hempty))
              · next hsome =>
                  have hreads : w.Reads i report :=
                    ⟨well, faulty, read, fun hnil => hsome (List.isEmpty_iff.2 hnil)⟩
                  split
                  · next answer hcleared =>
                      exact w.adds_tellFaults _ (.inr ⟨i, answer, rfl, hreads, hcleared⟩)
                  · exact .nothing rfl rfl
      · exact w.adds_tellFaults _ (.inl rfl)
  · exact .nothing rfl rfl

theorem adds_live (w : Watch) (m : Moment) : w.Adds m (w.live m) := by
  cases m with
  | joints => exact w.adds_lookAtJoints
  | mode => exact w.adds_lookAtMode
  | faults i => exact w.adds_lookAtFaultsAmid i
  | mend steps retry => exact .nothing rfl rfl
  | beside other => exact .nothing rfl rfl

/-! ## The last line is what the monitor remembers -/

/-- What the monitor remembers of the faults is what the last line about them says, and that there
are none before the first. -/
def Current (w : Watch) : Prop :=
  match w.lastFaultLine? with
  | none => w.monitor.knownFaults = []
  | some line => ∃ time told, line = Record.faultLine time told ∧
      w.monitor.knownFaults = Fault.Report.ids told

theorem Current.of_eq (h : w.Current) (hlast : after.lastFaultLine? = w.lastFaultLine?)
    (hknown : after.monitor.knownFaults = w.monitor.knownFaults) : after.Current := by
  rw [Current, hlast, hknown]
  exact h

theorem current_new (arm : Arm) (epoch : Float) : (Watch.new arm epoch).Current :=
  rfl

theorem Current.live (h : w.Current) (m : Moment) : (w.live m).Current := by
  cases w.adds_live m with
  | nothing lines known => exact h.of_eq (by rw [lastFaultLine?, lines]; rfl) known
  | other about lines known => exact h.of_eq (lastFaultLine?_concat_other lines about) known
  | faults _ lines known =>
      rw [Current, lastFaultLine?_concat lines (Record.isAboutFaults_faultLine _ _)]
      exact ⟨_, _, rfl, known⟩

theorem Current.course (h : w.Current) (moments : List Moment) : (w.course moments).Current := by
  induction moments generalizing w with
  | nil => exact h
  | cons m rest ih => exact ih (h.live m)

/-- What differs from the last line about faults is let through. -/
theorem Current.admits (h : w.Current) {report : Fault.Report} (hsome : report ≠ [])
    (hnews : ∀ time told, w.lastFaultLine? = some (Record.faultLine time told) →
      Fault.Report.ids told ≠ Fault.Report.ids report) :
    (w.monitor.admitFaults report).1 = true := by
  refine (w.monitor.admitFaults_iff report).1 ?_
  rw [Current] at h
  split at h
  · rw [h]
    exact fun hnone => hsome (List.map_eq_nil_iff.1 hnone.symm)
  · next line hline =>
      obtain ⟨time, told, rfl, hknown⟩ := h
      rw [hknown]
      exact hnews time told hline

/-! ## Lines that list no fault -/

/-- Whoever reads the lines has not heard of any fault. -/
def Unheard (w : Watch) : Prop :=
  ∀ line ∈ w.lines, Record.isAboutFaults line = true → ∃ time, line = Record.faultLine time []

/-- A moment at which no faults are cleared tells of none. -/
theorem Unheard.live (h : w.Unheard) {m : Moment}
    (hfails : ∀ i report, m = .faults i → w.Reads i report →
      ∀ answer, (w.cleared i).1 ≠ .ok answer) :
    (w.live m).Unheard := by
  cases w.adds_live m with
  | nothing lines _ =>
      rw [Unheard, lines]
      exact h
  | other about lines _ =>
      rw [Unheard, lines]
      refine List.forall_mem_append.2 ⟨h, List.forall_mem_singleton.2 fun habout => ?_⟩
      rw [about] at habout
      cases habout
  | faults grounds lines _ =>
      obtain rfl | ⟨i, answer, hm, hreads, hcleared⟩ := grounds
      · rw [Unheard, lines]
        exact List.forall_mem_append.2 ⟨h, List.forall_mem_singleton.2 fun _ => ⟨_, rfl⟩⟩
      · exact absurd hcleared (hfails i _ hm hreads answer)

theorem Unheard.course (h : w.Unheard) {moments : List Moment}
    (hfails : ∀ before i rest report, moments = before ++ .faults i :: rest →
      (w.course before).Reads i report →
        ∀ answer, ((w.course before).cleared i).1 ≠ .ok answer) :
    (w.course moments).Unheard := by
  induction moments generalizing w with
  | nil => exact h
  | cons m others ih =>
      refine ih (h.live fun i report hm => ?_) fun before i rest report hothers => ?_
      · exact hfails [] i others report (by rw [hm]; rfl)
      · exact hfails (m :: before) i rest report (by rw [hothers]; rfl)

/-! ## A look at faults that are news -/

theorem Reads.lookAtFaultsAmid_eq {i : Interludes} {report : Fault.Report}
    (h : w.Reads i report) :
    w.lookAtFaultsAmid i =
      match (w.cleared i).1 with
      | .ok _ => { w with arm := (w.cleared i).2 }.tellFaults report
      | .error _ => { w with arm := (w.cleared i).2 } := by
  rw [lookAtFaultsAmid, if_pos h.well, if_pos h.faulty, h.read]
  simp only
  exact if_neg fun hempty => h.nonempty (List.isEmpty_iff.1 hempty)

theorem tellFaults_of_admitted {report : Fault.Report}
    (h : (w.monitor.admitFaults report).1 = true) :
    (w.tellFaults report).lines =
      w.lines ++ [Record.faultLine (w.tellFaults report).time report] := by
  simp only [tellFaults, if_pos h]
  rfl

end

/-- Faults that were read, and that are not those of the last line about faults, are told by the
look that read them if it could clear them. If it could not, they are not told, and nothing of the
look is remembered. So as long as no clearing is accepted, no line lists a fault, however often the
faults are read. -/
theorem faults_told_once_cleared (arm : Arm) (epoch : Float) (moments : List Moment) :
    let now := (Watch.new arm epoch).course moments
    (∀ i report, now.Reads i report →
      (∀ time told, now.lastFaultLine? = some (Record.faultLine time told) →
        Fault.Report.ids told ≠ Fault.Report.ids report) →
      let after := now.live (.faults i)
      (∀ answer, (now.cleared i).1 = .ok answer →
        after.lines = now.lines ++ [Record.faultLine after.time report]) ∧
      ∀ failure, (now.cleared i).1 = .error failure →
        after.lines = now.lines ∧ after.monitor = now.monitor) ∧
    ((∀ before i rest report, moments = before ++ .faults i :: rest →
      ((Watch.new arm epoch).course before).Reads i report →
        ∀ answer, (((Watch.new arm epoch).course before).cleared i).1 ≠ .ok answer) →
      ∀ line ∈ now.lines, Record.isAboutFaults line = true →
        ∃ time, line = Record.faultLine time []) := by
  intro now
  have hcurrent : now.Current := (current_new arm epoch).course moments
  have hunheard : (Watch.new arm epoch).Unheard := fun _ hline => absurd hline List.not_mem_nil
  refine ⟨?_, hunheard.course⟩
  intro i report hreads hnews after
  have hafter : after = _ := hreads.lookAtFaultsAmid_eq
  refine ⟨fun answer hcleared => ?_, fun failure hcleared => ?_⟩
  · rw [hcleared] at hafter
    rw [hafter]
    exact tellFaults_of_admitted (hcurrent.admits hreads.nonempty hnews)
  · rw [hcleared] at hafter
    rw [hafter]
    exact ⟨rfl, rfl⟩

/-- A frame that reports an error, and zeros. -/
def errorFrame : List UInt8 :=
  Telemetry.wordBytes 2 Telemetry.frameSize ++ Telemetry.gap 22 ++ Telemetry.putWord 9
    ++ Telemetry.gap 1408

/-- All three links come up, and a frame comes that reports an error. -/
def alarm : Moment :=
  .mend ([.connect, .startKeeper, .startReader] ++ List.replicate 3 (.beside (.turn .keep)) ++
    List.replicate 5 (.beside (.turn .read)) ++
    [.beside (.turn (.aside (.arrive .realtime (.bytes errorFrame))))] ++
    List.replicate 3 (.beside (.turn .read))) none

/-- An arm with faults on two joints, whose controller answers a clearing in this way. -/
def faultyArm (answer : String) : Arm :=
  let fresh := Link.fresh "down" true
  .new (.forAddress "controller") ⟨fresh, fresh, fresh,
    ⟨[⟨some "GetErrorID()", ["0,\x7b[[69,72],[],[5],[],[],[]]\x7d,GetErrorID();"]⟩,
      ⟨some "ClearError()", [answer]⟩], [], []⟩⟩

/-- The faults are cleared and told. -/
theorem faults_told_once_cleared_accepted :
    let now := (Watch.new (faultyArm "0,\x7b\x7d,ClearError();") 0.0).course [alarm]
    let after := now.live (.faults ⟨[], [], []⟩)
    after.lines =
      [Record.faultLine after.time [⟨1, 69, none⟩, ⟨1, 72, none⟩, ⟨3, 5, none⟩]] := by
  intro now after
  have hreads : now.Reads ⟨[], [], []⟩ [⟨1, 69, none⟩, ⟨1, 72, none⟩, ⟨3, 5, none⟩] :=
    ⟨by decide +kernel, by decide +kernel, Dashboard.eq_ok_of_toOption (by decide +kernel),
      by decide⟩
  have hcleared : (now.cleared ⟨[], [], []⟩).1 = .ok .done :=
    Dashboard.eq_ok_of_toOption (by decide +kernel)
  obtain ⟨htold, -⟩ :=
    faults_told_once_cleared (faultyArm "0,\x7b\x7d,ClearError();") 0.0 [alarm]
  exact (htold ⟨[], [], []⟩ _ hreads (fun _ _ hline => nomatch hline)).1 _ hcleared

/-- Faults that were read and are news need not be told. -/
theorem read_faults_need_not_be_told :
    ¬ ∀ (arm : Arm) (epoch : Float) (moments : List Moment) (i : Interludes)
        (report : Fault.Report),
      let now := (Watch.new arm epoch).course moments
      now.Reads i report →
      (∀ time told, now.lastFaultLine? = some (Record.faultLine time told) →
        Fault.Report.ids told ≠ Fault.Report.ids report) →
      let after := now.live (.faults i)
      after.lines = now.lines ++ [Record.faultLine after.time report] := by
  intro hall
  let now := (Watch.new (faultyArm "2,\x7b\x7d,ClearError();") 0.0).course [alarm]
  have hreads : now.Reads ⟨[], [], []⟩ [⟨1, 69, none⟩, ⟨1, 72, none⟩, ⟨3, 5, none⟩] :=
    ⟨by decide +kernel, by decide +kernel, Dashboard.eq_ok_of_toOption (by decide +kernel),
      by decide⟩
  let after := now.live (.faults ⟨[], [], []⟩)
  have htold : after.lines = now.lines ++ [Record.faultLine after.time
      [⟨1, 69, none⟩, ⟨1, 72, none⟩, ⟨3, 5, none⟩]] :=
    hall (faultyArm "2,\x7b\x7d,ClearError();") 0.0 [alarm] ⟨[], [], []⟩ _ hreads
      (fun _ _ hline => nomatch hline)
  have huntold : after.lines = [] := by decide +kernel
  rw [huntold] at htold
  exact List.append_ne_nil_of_right_ne_nil _ (List.cons_ne_nil _ _) htold.symm

end Watch

end ArmLink
