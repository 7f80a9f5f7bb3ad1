import Mathlib.Data.List.Nodup
import ArmLink.Proofs.FaultReport

/-!
# The text of a report read back

In the text of a report a joint is named once for all the faults that follow, so which
joint a fault belongs to is a matter of where its line stands. A reader of the text goes
by the last header above, as the writer went by the last header it had written, and the
two have to agree at every line. They do for every report, in whatever order its joints
come: `readUnder_lines` is the induction, and it is about a report in the middle of its
text, below a header that may be any.

One thing can break the lines: a description with a line end in it. For all other reports
the faults are read back as they are, each with its joint and what is said of it.

A report of the controller's faults goes through the slots in order. So its joints come in
order too, and a header that is written is above all that come before. This is said of
the lines as they are written, and so it does not depend on the descriptions.
-/

namespace ArmLink.Fault

open ArmLink.Decimal (digits integerText natText)

/-- No description has a line end in it. -/
def Report.IsOneLined (report : Report) : Prop :=
  ∀ fault ∈ report, ∀ text ∈ fault.description, '\n' ∉ text.toList

/-- The joint of a fault, and what is said of it. -/
def Entry.told (fault : Entry) : Nat × String :=
  (fault.joint, match fault.description with
    | some text => text
    | none => "Unknown error id " ++ integerText fault.id)

namespace Report

/-! ## Reading -/

/-- The lines of a text. What stands behind the last line end is none yet. -/
def linesOf (text : List Char) : List (List Char) :=
  (text.splitOn '\n').dropLast

/-- The joint that a header names. -/
def header? : List Char → Option Nat
  | 'J' :: 'o' :: 'i' :: 'n' :: 't' :: rest =>
    let number := rest.dropLast
    if rest.getLast? = some ':' ∧ number ≠ [] ∧ number.all Char.isDigit then
      some (Nat.ofDigitChars 10 number 0)
    else none
  | _ => none

def headers (lines : List (List Char)) : List Nat :=
  lines.filterMap header?

/-- The faults in lines that stand below a header for the joint given, if any. A line behind a tab is
a fault of the joint of the last header, and any other line has to be a header. -/
def readUnder : Option Nat → List (List Char) → Option (List (Nat × String))
  | _, [] => some []
  | current, ('\t' :: said) :: rest => do
    let joint ← current
    let others ← readUnder current rest
    return (joint, String.ofList said) :: others
  | _, line :: rest => do
    let joint ← header? line
    readUnder (some joint) rest

def read (text : String) : Option (List (Nat × String)) :=
  readUnder none (linesOf text.toList)

/-! ## What is written -/

/-- The lines of a report without their line ends. -/
def written (current : Option Nat) (report : Report) : List (List Char) :=
  (linesUnder current report).map fun line => line.toList.dropLast

def heading (joint : Nat) : List Char :=
  "Joint".toList ++ digits joint ++ [':']

theorem toList_line (fault : Entry) :
    (line fault).toList = '\t' :: fault.told.2.toList ++ ['\n'] := by
  show ("\t" ++ fault.told.2 ++ "\n").toList = _
  rw [String.toList_append, String.toList_append]
  rfl

theorem toList_heading (joint : Nat) :
    ("Joint" ++ natText joint ++ ":\n").toList = heading joint ++ ['\n'] := by
  have hnumber : (natText joint).toList = digits joint := String.toList_ofList
  rw [String.toList_append, String.toList_append, hnumber]
  exact (List.append_assoc _ [':'] ['\n']).symm

/-- The first line of a report is a header, unless the fault belongs to the joint of the last one. -/
theorem written_cons (current : Option Nat) (fault : Entry) (rest : Report) :
    written current (fault :: rest) =
      (if current = some fault.joint then [] else [heading fault.joint]) ++
        ('\t' :: fault.told.2.toList) :: written (some fault.joint) rest := by
  have hline : (line fault).toList.dropLast = '\t' :: fault.told.2.toList := by
    rw [toList_line, List.dropLast_concat]
  have hheading : ("Joint" ++ natText fault.joint ++ ":\n").toList.dropLast = heading fault.joint := by
    rw [toList_heading, List.dropLast_concat]
  rw [written, linesUnder]
  split
  · next hsame => rw [List.map_cons, hline, ← hsame]; rfl
  · rw [List.map_cons, List.map_cons, hline, hheading]; rfl

theorem header?_heading (joint : Nat) : header? (heading joint) = some joint := by
  obtain ⟨hne, hall, hvalue⟩ := Decimal.figures_digits joint
  show (if (digits joint ++ [':']).getLast? = some ':' ∧ (digits joint ++ [':']).dropLast ≠ [] ∧
      (digits joint ++ [':']).dropLast.all Char.isDigit then
    some (Nat.ofDigitChars 10 (digits joint ++ [':']).dropLast 0) else none) = _
  rw [List.dropLast_concat, List.getLast?_concat, if_pos ⟨rfl, hne, List.all_eq_true.2 hall⟩,
    ← hvalue]

theorem newline_not_mem_heading (joint : Nat) : '\n' ∉ heading joint := by
  intro hc
  rcases List.mem_append.1 hc with hc | hc
  · rcases List.mem_append.1 hc with hc | hc
    · exact absurd hc (by decide)
    · exact absurd (Decimal.digits_subset joint hc) (by decide)
  · exact absurd hc (by decide)

theorem newline_not_mem_told {fault : Entry} (h : ∀ text ∈ fault.description, '\n' ∉ text.toList) :
    '\n' ∉ fault.told.2.toList := by
  rw [Entry.told]
  cases hdescription : fault.description with
  | some text => exact h text hdescription
  | none =>
      show '\n' ∉ ("Unknown error id " ++ integerText fault.id).toList
      have hnumber : (integerText fault.id).toList = Decimal.integerChars fault.id :=
        String.toList_ofList
      rw [String.toList_append, hnumber]
      intro hc
      rcases List.mem_append.1 hc with hc | hc
      · exact absurd hc (by decide)
      · exact absurd (Decimal.integerChars_subset fault.id hc) (by decide)

theorem newline_not_mem_written {current : Option Nat} {report : Report} (h : report.IsOneLined) :
    ∀ line ∈ written current report, '\n' ∉ line := by
  induction report generalizing current with
  | nil => exact fun _ hline => nomatch hline
  | cons fault rest ih =>
      obtain ⟨hfault, hrest⟩ := List.forall_mem_cons.1 h
      have htold : '\n' ∉ '\t' :: fault.told.2.toList :=
        List.not_mem_cons_of_ne_of_not_mem (by decide) (newline_not_mem_told hfault)
      rw [written_cons]
      intro line hline
      rcases List.mem_append.1 hline with hline | hline
      · split at hline
        · cases hline
        · rw [List.mem_singleton.1 hline]
          exact newline_not_mem_heading fault.joint
      · rcases List.mem_cons.1 hline with rfl | hline
        · exact htold
        · exact ih hrest line hline

theorem toList_text (report : Report) :
    report.text.toList = (written none report).flatMap (· ++ ['\n']) := by
  have hlines (current : Option Nat) (report : Report) :
      (linesUnder current report).flatMap String.toList =
        (written current report).flatMap (· ++ ['\n']) := by
    induction report generalizing current with
    | nil => rfl
    | cons fault rest ih =>
        rw [written_cons, linesUnder]
        split
        · next hsame =>
            rw [List.flatMap_cons, ih, toList_line, hsame]
            rfl
        · rw [List.flatMap_cons, List.flatMap_cons, ih, toList_line, toList_heading]
          rfl
  rw [text, String.toList_join]
  exact hlines none report

theorem linesOf_flatMap {lines : List (List Char)} (h : ∀ line ∈ lines, '\n' ∉ line) :
    linesOf (lines.flatMap (· ++ ['\n'])) = lines := by
  induction lines with
  | nil => rfl
  | cons line rest ih =>
      obtain ⟨hline, hrest⟩ := List.forall_mem_cons.1 h
      rw [List.flatMap_cons, List.append_assoc, linesOf]
      show ((line ++ '\n' :: _).splitOn '\n').dropLast = _
      rw [List.splitOn_append_cons_self_of_not_mem hline,
        List.dropLast_cons_of_ne_nil (List.splitOn_ne_nil _ _)]
      exact congrArg (line :: ·) (ih hrest)

theorem linesOf_text {report : Report} (h : report.IsOneLined) :
    linesOf report.text.toList = written none report := by
  rw [toList_text, linesOf_flatMap (newline_not_mem_written h)]

/-! ## Reading what is written -/

theorem readUnder_heading (current : Option Nat) (joint : Nat) (rest : List (List Char)) :
    readUnder current (heading joint :: rest) = readUnder (some joint) rest := by
  show (header? (heading joint)).bind (fun joint => readUnder (some joint) rest) = _
  rw [header?_heading]
  rfl

/-- Below any header, what is written is read as what it was written from. -/
theorem readUnder_lines (current : Option Nat) (report : Report) :
    readUnder current (written current report) = some (report.map Entry.told) := by
  induction report generalizing current with
  | nil => cases current <;> rfl
  | cons fault rest ih =>
      -- With a header in front or without, the entry stands below one for its joint.
      have hentry : readUnder (some fault.joint)
          (('\t' :: fault.told.2.toList) :: written (some fault.joint) rest) =
            some (fault.told :: rest.map Entry.told) := by
        rw [readUnder, ih]
        simp [Entry.told]
      rw [written_cons, List.map_cons]
      split
      · next hsame => rw [hsame]; exact hentry
      · rw [List.singleton_append, readUnder_heading]
        exact hentry

/-! ## Headers -/

theorem headers_written_cons (current : Option Nat) (fault : Entry) (rest : Report) :
    headers (written current (fault :: rest)) =
      (if current = some fault.joint then [] else [fault.joint]) ++
        headers (written (some fault.joint) rest) := by
  have hentry : header? ('\t' :: fault.told.2.toList) = none := rfl
  rw [written_cons, headers, List.filterMap_append, List.filterMap_cons_none hentry]
  split
  · rfl
  · rw [List.filterMap_cons_some (header?_heading fault.joint)]
    rfl

/-- The joints of a report come in order, and none is below the joint given. -/
def IsOrdered (current : Option Nat) (report : Report) : Prop :=
  report.Pairwise (fun fault later => fault.joint ≤ later.joint) ∧
    ∀ joint ∈ current, ∀ fault ∈ report, joint ≤ fault.joint

theorem IsOrdered.tail {current : Option Nat} {fault : Entry} {rest : Report}
    (h : IsOrdered current (fault :: rest)) : IsOrdered (some fault.joint) rest := by
  obtain ⟨hfault, hrest⟩ := List.pairwise_cons.1 h.1
  refine ⟨hrest, fun joint hjoint later hlater => ?_⟩
  obtain rfl := Option.some.inj hjoint
  exact hfault later hlater

/-- Headers of joints in order are above all that were written before. -/
theorem lt_headers {current : Option Nat} {report : Report} (h : IsOrdered current report) :
    (headers (written current report)).Pairwise (· < ·) ∧
      ∀ joint ∈ current, ∀ header ∈ headers (written current report), joint < header := by
  induction report generalizing current with
  | nil => exact ⟨List.Pairwise.nil, fun _ _ _ hheader => nomatch hheader⟩
  | cons fault rest ih =>
      obtain ⟨hpairwise, habove⟩ := ih h.tail
      have hrest : ∀ header ∈ headers (written (some fault.joint) rest), fault.joint < header :=
        habove fault.joint rfl
      rw [headers_written_cons]
      split
      · next hsame =>
          refine ⟨hpairwise, fun joint hjoint header hheader => ?_⟩
          obtain rfl := Option.some.inj (hsame.symm.trans hjoint)
          exact hrest header hheader
      · next hother =>
          refine ⟨List.pairwise_cons.2 ⟨hrest, hpairwise⟩, fun joint hjoint header hheader => ?_⟩
          have hle : joint ≤ fault.joint := h.2 joint hjoint fault List.mem_cons_self
          have hne : joint ≠ fault.joint := fun heq => hother (heq ▸ hjoint)
          rcases List.mem_cons.1 hheader with rfl | hheader
          · exact lt_of_le_of_ne hle hne
          · exact hle.trans_lt (hrest header hheader)

theorem mem_headers {current : Option Nat} {report : Report} {joint : Nat}
    (h : joint ∈ headers (written current report)) : ∃ fault ∈ report, fault.joint = joint := by
  induction report generalizing current with
  | nil => cases h
  | cons fault rest ih =>
      rw [headers_written_cons] at h
      rcases List.mem_append.1 h with h | h
      · split at h
        · cases h
        · exact ⟨fault, List.mem_cons_self, (List.mem_singleton.1 h).symm⟩
      · obtain ⟨other, hother, hjoint⟩ := ih h
        exact ⟨other, List.mem_cons_of_mem _ hother, hjoint⟩

/-- A joint with a fault has a header, unless it is the one whose header is there already. -/
theorem joint_mem_headers {current : Option Nat} {report : Report} {fault : Entry}
    (h : fault ∈ report) (hcurrent : current ≠ some fault.joint) :
    fault.joint ∈ headers (written current report) := by
  induction report generalizing current with
  | nil => cases h
  | cons first rest ih =>
      rw [headers_written_cons]
      rcases List.mem_cons.1 h with rfl | h
      · rw [if_neg hcurrent]
        exact List.mem_append_left _ List.mem_cons_self
      · by_cases hsame : first.joint = fault.joint
        · rw [hsame, if_neg hcurrent]
          exact List.mem_append_left _ List.mem_cons_self
        · exact List.mem_append_right _ (ih h fun heq => hsame (Option.some.inj heq))

theorem isOrdered_ofTable (describe : Int → Option String) (table : Table) :
    IsOrdered none (ofTable describe table) := by
  refine ⟨?_, fun _ hjoint => nomatch hjoint⟩
  rw [ofTable_eq, ofLists, List.pairwise_flatMap]
  constructor
  · rintro ⟨ids, i⟩ -
    exact List.pairwise_map.2 (List.pairwise_of_forall fun _ _ => le_rfl)
  · have hslots : (table.slots.toList.zipIdx.map Prod.snd).Pairwise (· < ·) := by
      rw [List.zipIdx_map_snd]
      exact List.pairwise_lt_range'
    refine (List.pairwise_map.1 hslots).imp fun hlt fault hfault later hlater => ?_
    obtain ⟨_, -, rfl⟩ := List.mem_map.1 hfault
    obtain ⟨_, -, rfl⟩ := List.mem_map.1 hlater
    exact Nat.succ_le_succ hlt.le

theorem isOrdered_faultReport {a : Arm} {report : Report} (h : a.faultReport.1 = .ok report) :
    IsOrdered none report := by
  have hreport : a.faultReport.1 =
      (Dashboard.faultTable a.config.patience.reply a.bench).1.map (ofTable a.describe) := rfl
  rw [hreport] at h
  cases htable : (Dashboard.faultTable a.config.patience.reply a.bench).1 with
  | error failure =>
      rw [htable] at h
      cases h
  | ok table =>
      rw [htable] at h
      obtain rfl := Except.ok.inj h
      exact isOrdered_ofTable a.describe table

/-- The text of a report without line ends in its descriptions is read back line by line as the
faults of the report in their order, each with its joint and with its description, or else its
number. In a report of the controller's faults a header is written once for each joint that has
faults, and the headers are in order. -/
theorem text_tells_joints :
    (∀ report : Report, report.IsOneLined → read report.text = some (report.map Entry.told)) ∧
    ∀ (a : Arm) (report : Report), a.faultReport.1 = .ok report →
      let joints := headers (written none report)
      joints.Pairwise (· < ·) ∧
      (∀ fault ∈ report, joints.count fault.joint = 1) ∧
      (∀ joint ∈ joints, ∃ fault ∈ report, fault.joint = joint) ∧
      (report.IsOneLined → linesOf report.text.toList = written none report) := by
  refine ⟨fun report hlined => ?_, fun a report hreport => ?_⟩
  · rw [read, linesOf_text hlined, readUnder_lines]
  · obtain ⟨hsorted, -⟩ := lt_headers (isOrdered_faultReport hreport)
    have hnodup : (headers (written none report)).Nodup := hsorted.imp ne_of_lt
    exact ⟨hsorted,
      fun fault hfault => List.count_eq_one_of_mem hnodup (joint_mem_headers hfault (by simp)),
      fun _ => mem_headers, linesOf_text⟩

/-- A report with joints out of order and descriptions that look like lines of their own, and a
report of the controller in which a description has a line end. -/
theorem text_tells_joints_disguised :
    let disguised : Report :=
      [⟨3, 69, some "Joint7:"⟩, ⟨1, -5, none⟩, ⟨3, 1, some ""⟩, ⟨3, 2, some "\tx"⟩]
    let line := "0,\x7b[[5,7],[],[69]]\x7d,GetErrorID();"
    let link := { Link.fresh "down" true with up := true, inbox := [.bytes (Text.Utf8.encode line)] }
    let config := Config.forAddress "controller"
    let a := { Arm.new config { config.unreachable with dashboard := link } with
      messages := some (.ofList [(7, "a\nJoint9:")]) }
    let report : Report := [⟨1, 5, none⟩, ⟨1, 7, some "a\nJoint9:"⟩, ⟨3, 69, none⟩]
    read disguised.text =
        some [(3, "Joint7:"), (1, "Unknown error id -5"), (3, ""), (3, "\tx")] ∧
      a.faultReport.1 = .ok report ∧ headers (written none report) = [1, 3] ∧
      (headers (written none report)).Pairwise (· < ·) := by
  intro disguised line link config a report
  obtain ⟨hread, hheaders⟩ := text_tells_joints
  have hlined : disguised.IsOneLined := by
    unfold IsOneLined
    decide
  have hreport : a.faultReport.1 = .ok report := Dashboard.eq_ok_of_toOption (by decide +kernel)
  exact ⟨(hread disguised hlined).trans (by decide +kernel), hreport, by decide +kernel,
    (hheaders a report hreport).1⟩

end Report

end ArmLink.Fault
