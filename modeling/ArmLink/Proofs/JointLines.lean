import ArmLink.Proofs.DecimalScale
import ArmLink.Proofs.FrameCodec
import ArmLink.Proofs.JsonGrammar
import ArmLink.Telemetry.Snapshot

/-!
# Lines about the joints

The other lines of the daemon are values that are written as JSON. The one about the joints
is put together by hand, from texts that hold its quotes, brackets and names, and from
numbers with a fixed count of decimals. It is JSON whenever all of these are numbers
(`spells_jointLine`), and it never is when one of them is not: in its place stands a word,
outside of every string, with a letter that JSON has nowhere but in strings
(`not_isText_jointLine`). Whether a coordinate still is a number when it has been rounded is
a matter of the range of the doubles alone.
-/

namespace ArmLink.Record

open ArmLink.Decimal
open ArmLink.Json (Balanced Document IsText Number Spells Unescaped bare pieces quoted_pieces)
open ArmLink.Telemetry (Frame Snapshot)

/-! ## The text of a line -/

/-- The document that a line about the joints is meant to be. -/
def jointDocument (time : List Char) (joints pose : List (List Char)) : Document :=
  .object
    [(pieces "stime", .number time), (pieces "type", .text (pieces jointKind)),
      (pieces "joint_positions", .array (joints.map .number)), (pieces "tcp_pose", .array (pose.map .number))]

theorem spells_fixedList {d : ℕ} {xs : List Float} (hne : xs ≠ [])
    (h : ∀ x ∈ xs, Number (fixedChars d x)) :
    Spells (.value (.array ((xs.map (fixedChars d)).map .number))) (fixedList d xs) :=
  .array (Json.spells_elements (mt List.map_eq_nil_iff.1 hne) (List.forall_mem_map.2 h))

theorem unescaped_names : Unescaped "stime" ∧ Unescaped "type" ∧ Unescaped "joint_positions" ∧
    Unescaped "tcp_pose" ∧ Unescaped jointKind := by
  simp [Unescaped, jointKind]

def named (name : String) (cs : List Char) : List Char :=
  '"' :: name.toList ++ ['"'] ++ [':'] ++ cs

theorem spells_named {name : String} {document : Document} {cs : List Char} (hname : Unescaped name)
    (h : Spells (.value document) cs) : Spells (.members [(pieces name, document)]) (named name cs) := by
  simpa [named] using Spells.lastMember Json.blanks_nil (quoted_pieces hname) Json.blanks_nil (.alone h)

/-- The fixed texts of a line are too long to be rewritten where they stand. -/
theorem parts_eq {front front' kind kind' between between' : List Char} (hfront : front = front')
    (hkind : kind = kind') (hbetween : between = between') (number joints pose last : List Char) :
    front ++ number ++ kind ++ joints ++ between ++ pose ++ last =
      front' ++ number ++ kind' ++ joints ++ between' ++ pose ++ last := by
  rw [hfront, hkind, hbetween]

/-- A line as its members in a row. -/
theorem jointLine_toList (d : ℕ) (time : Float) (s : Sample) : (jointLine d time s).toList =
    '\x7b' :: (named "stime" (fixedChars 6 time) ++ [','] ++
      (named "type" ('"' :: jointKind.toList ++ ['"']) ++ [','] ++
        (named "joint_positions" (fixedList d s.joints.toList) ++ [','] ++
          named "tcp_pose" (fixedList d s.pose.toList)))) ++ ['\x7d'] := by
  have hfront : "\x7b\"stime\":".toList = '\x7b' :: named "stime" [] := by decide +kernel
  have hkind : (",\"type\":\"" ++ jointKind ++ "\",\"joint_positions\":").toList =
      [','] ++ (named "type" ('"' :: jointKind.toList ++ ['"']) ++ [','] ++ named "joint_positions" []) := by
    decide +kernel
  have hbetween : ",\"tcp_pose\":".toList = [','] ++ named "tcp_pose" [] := by decide +kernel
  refine String.toList_ofList.trans ((parts_eq hfront hkind hbetween _ _ _ _).trans ?_)
  simp only [named, List.append_assoc, List.cons_append, List.nil_append, List.append_nil]

theorem spells_jointLine {d : ℕ} {time : Float} {s : Sample} (htime : Number (fixedChars 6 time))
    (hjoints : ∀ x ∈ s.joints.toList, Number (fixedChars d x))
    (hpose : ∀ x ∈ s.pose.toList, Number (fixedChars d x)) :
    Spells (.element (jointDocument (fixedChars 6 time) (s.joints.toList.map (fixedChars d))
      (s.pose.toList.map (fixedChars d)))) (jointLine d time s).toList := by
  obtain ⟨hstime, htype, hpositions, htcp, hkind⟩ := unescaped_names
  have hne : s.joints.toList ≠ [] := List.ne_nil_of_length_pos (by rw [Vector.length_toList]; omega)
  rw [jointLine_toList]
  refine .alone (.object (.moreMembers ?_ (.moreMembers ?_ (.moreMembers ?_ ?_))))
  · exact spells_named hstime (.number htime)
  · exact spells_named htype (.text (quoted_pieces hkind))
  · exact spells_named hpositions (spells_fixedList hne hjoints)
  · exact spells_named htcp (spells_fixedList (List.cons_ne_nil _ _) hpose)

/-! ## Words in place of numbers -/

theorem quote_not_mem_fixedChars (d : ℕ) (x : Float) : '"' ∉ fixedChars d x := by
  have hquote : '"' ∉ numerals := by decide
  exact fun hmem => hquote (fixedChars_subset d x hmem)

theorem mem_fixedList_iff {d : ℕ} {xs : List Float} {c : Char} (hc : c ∉ ['[', ',', ']']) :
    c ∈ fixedList d xs ↔ ∃ x ∈ xs, c ∈ fixedChars d x := by
  simp only [List.mem_cons, List.not_mem_nil, or_false, not_or] at hc
  obtain ⟨hopen, hcomma, hclose⟩ := hc
  have hinside : c ∈ [','].intercalate (xs.map (fixedChars d)) ↔ ∃ x ∈ xs, c ∈ fixedChars d x := by
    induction xs with
    | nil => simp
    | cons x rest ih =>
        cases rest with
        | nil => simp
        | cons y rest =>
            rw [List.map_cons, List.map_cons, List.intercalate_cons_cons, ← List.map_cons, List.mem_append,
              List.mem_append, ih]
            simp [hcomma]
  rw [fixedList, List.cons_append, List.mem_cons, List.mem_append, hinside]
  simp [hopen, hclose]

theorem quote_not_mem_fixedList (d : ℕ) (xs : List Float) : '"' ∉ fixedList d xs := by
  rw [mem_fixedList_iff (by decide)]
  rintro ⟨x, -, hmem⟩
  exact quote_not_mem_fixedChars d x hmem

theorem balanced_name {name : String} (h : Unescaped name) :
    Balanced ('"' :: name.toList ++ ['"'] ++ [':']) :=
  (quoted_pieces h).clean.balanced.append (Json.bare_of_not_mem (by simp)).2

theorem balanced_named {name : String} {cs : List Char} (hname : Unescaped name) (h : Balanced cs) :
    Balanced (named name cs) :=
  (balanced_name hname).append h

theorem bare_named {name : String} {cs : List Char} (hname : Unescaped name) :
    bare .outside cs ⊆ bare .outside (named name cs) := by
  rw [named, (balanced_name hname).bare_append]
  exact List.subset_append_right _ _

/-- The characters of every number stand outside the strings of the line. -/
theorem mem_bare_jointLine {d : ℕ} {time : Float} {s : Sample} {x : Float} (hx : x ∈ s.coordinates)
    {c : Char} (hmark : c ∉ ['[', ',', ']']) (hc : c ∈ fixedChars d x) :
    c ∈ bare .outside (jointLine d time s).toList := by
  obtain ⟨hstime, htype, hpositions, htcp, hkind⟩ := unescaped_names
  have hcomma : Balanced [','] := (Json.bare_of_not_mem (by simp)).2
  have hbrace : Balanced ['\x7b'] := (Json.bare_of_not_mem (by simp)).2
  have hlist (xs : List Float) := Json.bare_of_not_mem (quote_not_mem_fixedList d xs)
  have htime : Balanced (named "stime" (fixedChars 6 time)) :=
    balanced_named hstime (Json.bare_of_not_mem (quote_not_mem_fixedChars 6 time)).2
  have hevent : Balanced (named "type" ('"' :: jointKind.toList ++ ['"'])) :=
    balanced_named htype (quoted_pieces hkind).clean.balanced
  have hjoints : Balanced (named "joint_positions" (fixedList d s.joints.toList)) :=
    balanced_named hpositions (hlist _).2
  have hbare {xs : List Float} (hx : x ∈ xs) : c ∈ bare .outside (fixedList d xs) := by
    rw [(hlist xs).1, mem_fixedList_iff hmark]
    exact ⟨x, hx, hc⟩
  have hmembers : c ∈ bare .outside (named "joint_positions" (fixedList d s.joints.toList) ++ [','] ++
      named "tcp_pose" (fixedList d s.pose.toList)) := by
    rw [(hjoints.append hcomma).bare_append, hjoints.bare_append]
    rcases List.mem_append.1 hx with hx | hx
    · exact List.mem_append_left _ (List.mem_append_left _ (bare_named hpositions (hbare hx)))
    · exact List.mem_append_right _ (bare_named htcp (hbare hx))
  -- What stands in front of these members is balanced, so they are read from outside.
  rw [jointLine_toList, Json.bare_append]
  refine List.mem_append_left _ ?_
  rw [← List.singleton_append, hbrace.bare_append, (htime.append hcomma).bare_append,
    (hevent.append hcomma).bare_append]
  exact List.mem_append_right _ (List.mem_append_right _ (List.mem_append_right _ hmembers))

/-- What is not a number is written as a word that JSON does not have. -/
theorem not_isText_jointLine {d : ℕ} {time : Float} {s : Sample} {x : Float} (hx : x ∈ s.coordinates)
    (h : rational? x = none) : ¬ IsText (jointLine d time s).toList := by
  have hletter : ∃ c ∈ ['N', 'i'], c ∈ fixedChars d x := by
    rw [rational?] at h
    rw [fixedChars]
    cases hparts : Binary64.ofFloat x with
    | nan => exact ⟨'N', by simp⟩
    | infinite negative => cases negative <;> exact ⟨'i', by simp⟩
    | finite negative m e =>
        rw [hparts] at h
        cases h
  obtain ⟨c, hc, hmem⟩ := hletter
  have hmark : c ∉ ['[', ',', ']'] ∧ ¬ Json.Allowed c := by
    simp only [List.mem_cons, List.not_mem_nil, or_false] at hc
    rcases hc with rfl | rfl
    · exact ⟨by decide, by simp [Json.Allowed, Json.signs, marks, Json.isSpace]⟩
    · exact ⟨by decide, by simp [Json.Allowed, Json.signs, marks, Json.isSpace]⟩
  exact Json.not_isText (mem_bare_jointLine hx hmark.1 hmem) hmark.2

/-! ## Lines of the daemon -/

theorem coordinates_rounded (d : ℕ) (s : Sample) :
    (s.rounded d).coordinates = s.coordinates.map (roundTo d) := by
  simp [Sample.coordinates, Sample.rounded, Robot.Pose.toList, Vector.toList_map]

/-- The number with so many decimals that is nearest to a double, as JSON has it. -/
def Prints (d : ℕ) (literal : List Char) (x : Float) : Prop :=
  Number literal ∧ ∃ v, ∃ k : ℤ, rational? x = some v ∧ Spelled literal (k / 10 ^ d) ∧
    |(k : ℚ) - v * 10 ^ d| ≤ 1 / 2

theorem prints_fixedChars {x : Float} {v : ℚ} (h : rational? x = some v) (d : ℕ) :
    Prints d (fixedChars d x) x := by
  obtain ⟨k, hfixed, hnear⟩ := fixed_fixedChars h d
  exact ⟨Json.number_fixedChars h d, v, k, h, hfixed.spelled, hnear⟩

/-- Numbers make a line an object with four and six numbers in it. -/
theorem jointLine_of_finite {d : ℕ} {time : Float} {t : ℚ} {s : Sample} (htime : rational? time = some t)
    (h : ∀ x ∈ s.coordinates, ∃ v, rational? x = some v) :
    ∃ stime joints pose, joints.length = 4 ∧ pose.length = 6 ∧
      Spells (.element (jointDocument stime joints pose)) (jointLine d time s).toList ∧
      Prints 6 stime time ∧ List.Forall₂ (Prints d) (joints ++ pose) s.coordinates := by
  have hprints : ∀ x ∈ s.coordinates, Prints d (fixedChars d x) x := by
    intro x hx
    obtain ⟨v, hv⟩ := h x hx
    exact prints_fixedChars hv d
  obtain ⟨hjoints, hpose⟩ := List.forall_mem_append.1 hprints
  refine ⟨fixedChars 6 time, s.joints.toList.map (fixedChars d), s.pose.toList.map (fixedChars d),
    by simp, by simp [Robot.Pose.toList], ?_, prints_fixedChars htime 6, ?_⟩
  · exact spells_jointLine (Json.number_fixedChars htime 6) (fun x hx => (hjoints x hx).1)
      fun x hx => (hpose x hx).1
  · rw [← List.map_append]
    exact List.forall₂_map_left_iff.2 (List.forall₂_same.2 hprints)

/-- The sample that a frame is for the daemon. -/
def ofFrame (f : Frame) : Sample :=
  ⟨(Snapshot.ofFrame f).armJoints, (Snapshot.ofFrame f).pose⟩

/-- The line about a frame is JSON exactly when every coordinate can be rounded, which none can with
more than 308 decimals. Then it is an object with four and six numbers in it, those of the rounded
sample. -/
theorem joint_line_is_text_iff (f : Frame) {d : ℕ} (hd : d ≤ 65535) {time : Float} {t : ℚ}
    (htime : rational? time = some t) :
    let s := ofFrame f
    let line := (jointLine d time (s.rounded d)).toList
    (IsText line ↔ ∀ x ∈ s.coordinates, Roundable d x) ∧
      (IsText line → ∃ stime joints pose, joints.length = 4 ∧ pose.length = 6 ∧
        Spells (.element (jointDocument stime joints pose)) line ∧ Prints 6 stime time ∧
        List.Forall₂ (Prints d) (joints ++ pose) (s.rounded d).coordinates) ∧
      (308 < d → ¬ IsText line) := by
  intro s line
  have hroom : d < UInt32.size / 2 := lt_of_le_of_lt hd (by decide)
  have hfinite (htext : IsText line) : ∀ x ∈ (s.rounded d).coordinates, ∃ v, rational? x = some v := by
    intro x hx
    rw [← Option.ne_none_iff_exists']
    exact fun hnone => not_isText_jointLine hx hnone htext
  have hiff : (∀ x ∈ (s.rounded d).coordinates, ∃ v, rational? x = some v) ↔
      ∀ x ∈ s.coordinates, Roundable d x := by
    rw [coordinates_rounded, List.forall_mem_map]
    exact forall₂_congr fun x _ => (roundable_iff hroom x).symm
  refine ⟨⟨fun htext => hiff.1 (hfinite htext), fun hall => ?_⟩,
    fun htext => jointLine_of_finite htime (hfinite htext), fun hlarge htext => ?_⟩
  · obtain ⟨_, _, _, -, -, hspells, -⟩ := jointLine_of_finite (d := d) htime (hiff.2 hall)
    exact ⟨_, hspells⟩
  · have hx : s.pose.x ∈ s.coordinates := List.mem_append_right _ (List.mem_cons_self ..)
    exact not_roundable_of_lt hlarge hroom _ (hiff.1 (hfinite htext) _ hx)

/-- A frame of an arm that has turned its first joint by 45 degrees and holds its tool a meter up. -/
def turned : Frame :=
  { Frame.inMode 5 with
    joints := #v[(45.0 : Float).toBits, 0, 0, 0, 0, 0]
    tool := #v[0, 0, (1000.0 : Float).toBits, 0, 0, 0] }

theorem joint_line_is_text_iff_turned :
    3 ≤ 65535 ∧ rational? 1.5 = some (3 / 2) ∧ IsText (jointLine 3 1.5 ((ofFrame turned).rounded 3)).toList ∧
      ∃ stime joints pose, joints.length = 4 ∧ pose.length = 6 ∧
        Spells (.element (jointDocument stime joints pose))
          (jointLine 3 1.5 ((ofFrame turned).rounded 3)).toList ∧ Prints 6 stime 1.5 ∧
        List.Forall₂ (Prints 3) (joints ++ pose) ((ofFrame turned).rounded 3).coordinates := by
  have htime : rational? 1.5 = some (3 / 2) := by decide +kernel
  have hrounded : ((ofFrame turned).coordinates.all fun x => (rational? (roundTo 3 x)).isSome) = true := by
    decide +kernel
  have hroundable : ∀ x ∈ (ofFrame turned).coordinates, Roundable 3 x := by
    intro x hx
    exact (roundable_iff (by decide) x).2 (Option.isSome_iff_exists.1 (List.all_eq_true.1 hrounded x hx))
  obtain ⟨hiff, hnumbers, -⟩ := joint_line_is_text_iff turned (show 3 ≤ 65535 by decide) htime
  have htext := hiff.2 hroundable
  exact ⟨by decide, htime, htext, hnumbers htext⟩

/-- With 309 decimals not even the line of an arm at its origin is JSON. -/
theorem joint_line_need_not_be_text :
    Telemetry.decode (Telemetry.encode (.inMode 5)) = .frame (.inMode 5) ∧ 309 ≤ 65535 ∧
      rational? 1.5 = some (3 / 2) ∧
      ¬ IsText (jointLine 309 1.5 ((ofFrame (.inMode 5)).rounded 309)).toList := by
  refine ⟨Telemetry.decode_encode _, by decide, by decide +kernel, ?_⟩
  refine not_isText_jointLine (x := roundTo 309 (ofFrame (.inMode 5)).pose.x) ?_ ?_
  · exact List.mem_append_right _ (List.mem_cons_self ..)
  · rw [← Option.not_isSome_iff_eq_none, Option.isSome_iff_exists]
    intro hfinite
    exact not_roundable_of_lt (by decide) (by decide) _ ((roundable_iff (by decide) _).2 hfinite)

end ArmLink.Record
