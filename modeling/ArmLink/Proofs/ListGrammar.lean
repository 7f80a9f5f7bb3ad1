import Mathlib.Data.List.DropRight
import ArmLink.Proofs.WrittenLists

/-!
# Which payloads are lists of integers

`Bracketed` and `Tokens` are the grammar, in two levels as it is read: groups in
brackets that stand in a row, bare or inside one outer pair, and in each group
tokens between commas, every one of them blank or an integer. The reader goes over
the brackets once, from left to right, and knows only where it stands. So what is
proved of it is `Left`, what a pass that comes to an end has found in the rest of
the text from each of those places. From the first place that is a row with blanks
around it, and perhaps one closing bracket too many.

That bracket is why the two halves of an outer pair need care. The pass does not
know about an opening one, and `outer?` does not look for a closing one. Either of
them may stand alone, and it is the comparison of the two in `readLists` that
leaves both or neither.
-/

namespace ArmLink

namespace Text

theorem Blank.cons {c : Char} {cs : List Char} (hc : isBlank c = true) (h : Blank cs) :
    Blank (c :: cs) :=
  List.forall_mem_cons.2 ⟨hc, h⟩

theorem blank_of_trim {cs : List Char} (h : trim cs = []) : Blank cs := by
  rw [trim, strip, List.reverse_eq_nil_iff, List.dropWhile_eq_nil_iff] at h
  -- Behind the blanks in front there would be a character that is none, and all of them are.
  have hall : cs.dropWhile isBlank = [] := by
    by_contra hne
    have hhead := List.head_dropWhile_not isBlank hne
    rw [h _ (List.mem_reverse.2 (List.head_mem hne))] at hhead
    cases hhead
  exact List.dropWhile_eq_nil_iff.1 hall

theorem trim_eq_nil_iff {cs : List Char} : trim cs = [] ↔ Blank cs :=
  ⟨blank_of_trim, trim_blank⟩

theorem trim_trim (cs : List Char) : trim (trim cs) = trim cs := by
  -- Taking the blanks off the back does not bring any to the front.
  have hfront : ((cs.dropWhile isBlank).rdropWhile isBlank).dropWhile isBlank =
      (cs.dropWhile isBlank).rdropWhile isBlank := by
    obtain ⟨back, hback⟩ := List.rdropWhile_prefix isBlank (l := cs.dropWhile isBlank)
    cases hleft : (cs.dropWhile isBlank).rdropWhile isBlank with
    | nil => rfl
    | cons c rest =>
        rw [hleft, List.cons_append] at hback
        have hhead := List.head_dropWhile_not isBlank (l := cs) (by simp [← hback])
        simp only [← hback, List.head_cons] at hhead
        rw [List.dropWhile_cons_of_neg (by simp [hhead])]
  show (((cs.dropWhile isBlank).rdropWhile isBlank).dropWhile isBlank).rdropWhile isBlank =
    (cs.dropWhile isBlank).rdropWhile isBlank
  rw [hfront, List.rdropWhile_idempotent]

end Text

namespace Payload

open ArmLink.Decimal (Numeral int64 integerChars numeral_integerChars readInteger readInteger_ok_iff)
open ArmLink.Text (Blank isBlank trim trim_eq_nil_iff)

/-- Groups in brackets, bare or inside one outer pair. -/
inductive Bracketed : List (List Char) → List Char → Prop where
  | bare {insides : List (List Char)} {text : List Char} (row : Row insides text) :
      Bracketed insides text
  | outer {insides : List (List Char)} {text front back : List Char}
      (blank : Blank front ∧ Blank back) (row : Row insides text) :
      Bracketed insides ('[' :: (front ++ (text ++ (back ++ [']']))))

/-- Tokens, and the integers of those that are not blank. -/
inductive Tokens : List (List Char) → List Int → Prop where
  | nil : Tokens [] []
  | blank {token : List Char} {tokens : List (List Char)} {ids : List Int}
      (blank : Blank token) (others : Tokens tokens ids) : Tokens (token :: tokens) ids
  | integer {token : List Char} {tokens : List (List Char)} {id : Int} {ids : List Int}
      (numeral : Numeral (trim token) id) (bounded : int64.holds id)
      (others : Tokens tokens ids) : Tokens (token :: tokens) (id :: ids)

/-! ## Tokens -/

theorem readElement_ok_iff {token : List Char} {id : Int} :
    readElement token = .ok id ↔ Numeral token id ∧ int64.holds id := by
  rw [← readInteger_ok_iff (by decide) (by decide), readElement]
  cases readInteger int64 token <;> simp

theorem tokens_iff {tokens : List (List Char)} {ids : List Int} :
    Tokens tokens ids ↔
      List.Forall₂ (fun id token => readElement token = .ok id) ids
        ((tokens.map trim).filter (· ≠ [])) := by
  constructor
  · intro h
    induction h with
    | nil => exact .nil
    | blank blank _ ih =>
        rw [List.map_cons, List.filter_cons_of_neg (by simp [trim_eq_nil_iff.2 blank])]
        exact ih
    | integer numeral bounded _ ih =>
        rw [List.map_cons, List.filter_cons_of_pos (by simp [numeral.ne_nil])]
        exact .cons (readElement_ok_iff.2 ⟨numeral, bounded⟩) ih
  · intro h
    induction tokens generalizing ids with
    | nil =>
        cases h
        exact .nil
    | cons token rest ih =>
        by_cases hblank : trim token = []
        · rw [List.map_cons, List.filter_cons_of_neg (by simp [hblank])] at h
          exact .blank (trim_eq_nil_iff.1 hblank) (ih h)
        · rw [List.map_cons, List.filter_cons_of_pos (by simp [hblank])] at h
          cases h with
          | cons hread hrest =>
              obtain ⟨numeral, bounded⟩ := readElement_ok_iff.1 hread
              exact .integer numeral bounded (ih hrest)

theorem readList_ok_iff {inside : List Char} {ids : List Int} :
    readList inside = .ok ids ↔ Tokens (inside.splitOn ',') ids := by
  rw [readList, mapM_eq_ok_iff, tokens_iff]

/-! ## A pass over the brackets -/

/-- What stands behind the last list. -/
def Groups.tail (groups : Groups) : List Char :=
  if groups.closed then [']'] else []

/-- What is left of a text behind a list: no more lists, or a comma and a row of them. -/
inductive Behind : Groups → List Char → Prop where
  | last {closed : Bool} {back : List Char} (blank : Blank back) :
      Behind ⟨[], closed⟩ (back ++ Groups.tail ⟨[], closed⟩)
  | comma {groups : Groups} {before after text back : List Char}
      (blank : Blank before ∧ Blank after ∧ Blank back) (row : Row groups.lists text) :
      Behind groups (before ++ ',' :: (after ++ (text ++ (back ++ groups.tail))))

/-- What a pass has found in the rest of a text, from each place where it can stand. -/
def Left : Place → Groups → List Char → Prop
  | .before, groups, cs => ∃ front text back, (Blank front ∧ Blank back) ∧
      Row groups.lists text ∧ cs = front ++ (text ++ (back ++ groups.tail))
  | .inside taken, groups, cs => ∃ inside more rest, Unbracketed inside ∧ Behind more rest ∧
      groups = more.cons (taken.reverse ++ inside) ∧ cs = inside ++ ']' :: rest
  | .behind, groups, cs => Behind groups cs
  | .done, groups, cs => groups = ⟨[], true⟩ ∧ cs = []

@[simp]
theorem Groups.tail_cons (inside : List Char) (groups : Groups) :
    (groups.cons inside).tail = groups.tail := rfl

/-- A list and what is left behind it are a row with blanks behind it. -/
theorem Behind.row {inside rest : List Char} {groups : Groups} (h : Behind groups rest)
    (plain : Unbracketed inside) : ∃ text back, Blank back ∧
      Row (groups.cons inside).lists text ∧
      '[' :: (inside ++ ']' :: rest) = text ++ (back ++ (groups.cons inside).tail) := by
  cases h with
  | last blank => exact ⟨_, _, blank, .last plain, by simp⟩
  | comma blank row =>
      exact ⟨_, _, blank.2.2, .cons plain ⟨blank.1, blank.2.1⟩ row, by simp⟩

theorem scanGroups_left {place : Place} {cs : List Char} {groups : Groups}
    (h : scanGroups place cs = some groups) : Left place groups cs := by
  fun_induction scanGroups place cs generalizing groups with
  | case1 => cases h
  | case2 => cases h
  | case3 =>
      obtain rfl := Option.some.inj h
      exact @Behind.last false [] (by simp [Blank])
  | case4 =>
      obtain rfl := Option.some.inj h
      exact ⟨rfl, rfl⟩
  | case5 cs ih =>
      obtain ⟨inside, more, rest, plain, behind, rfl, rfl⟩ := ih h
      obtain ⟨text, back, blank, row, heq⟩ := behind.row plain
      exact ⟨[], text, back, ⟨by simp [Blank], blank⟩, row, heq⟩
  | case6 c cs _ hc ih =>
      obtain ⟨front, text, back, blank, row, rfl⟩ := ih h
      exact ⟨c :: front, text, back, ⟨.cons hc blank.1, blank.2⟩, row, rfl⟩
  | case7 => cases h
  | case8 => cases h
  | case9 taken cs _ ih =>
      obtain ⟨more, hmore, rfl⟩ := Option.map_eq_some_iff.1 h
      exact ⟨[], more, cs, by simp [Unbracketed], ih hmore, by simp, rfl⟩
  | case10 taken c cs hopen hclose ih =>
      obtain ⟨inside, more, rest, plain, behind, rfl, rfl⟩ := ih h
      refine ⟨c :: inside, more, rest, ?_, behind, by simp, rfl⟩
      simp [Unbracketed, plain.1, plain.2, Ne.symm hopen, Ne.symm hclose]
  | case11 cs ih =>
      obtain ⟨front, text, back, blank, row, rfl⟩ := ih h
      exact @Behind.comma _ [] _ _ _ ⟨by simp [Blank], blank⟩ row
  | case12 cs _ ih =>
      obtain ⟨rfl, rfl⟩ := ih h
      exact @Behind.last true [] (by simp [Blank])
  | case13 c cs _ _ hc ih =>
      cases ih h with
      | last blank => exact @Behind.last _ (c :: _) (.cons hc blank)
      | comma blank row => exact @Behind.comma _ (c :: _) _ _ _ ⟨.cons hc blank.1, blank.2⟩ row
  | case14 => cases h
  | case15 => cases h

/-! ## Whole payloads -/

theorem outer?_eq_some {body cs : List Char} (h : outer? body = some cs) : body = '[' :: cs := by
  rw [outer?.eq_def] at h
  split at h
  · split at h
    · rw [Option.some.inj h]
    · cases h
  · cases h

/-- A pass over a payload that leaves both halves of an outer pair, or neither, has seen groups in
brackets and nothing else. -/
theorem bracketed_of_scanGroups {payload : List Char} {groups : Groups}
    (hscan : scanGroups .before ((outer? (trim payload)).getD (trim payload)) = some groups)
    (hclosed : (outer? (trim payload)).isSome = groups.closed) :
    Bracketed groups.lists (trim payload) := by
  obtain ⟨front, text, back, blank, row, heq⟩ := scanGroups_left hscan
  cases houter : outer? (trim payload) with
  | some cs =>
      rw [houter] at hclosed heq
      have htail : groups.tail = [']'] := by simp [Groups.tail, ← hclosed]
      rw [htail, Option.getD_some] at heq
      rw [outer?_eq_some houter, heq]
      exact .outer blank row
  | none =>
      rw [houter] at hclosed heq
      have htail : groups.tail = [] := by simp [Groups.tail, ← hclosed]
      rw [htail, Option.getD_none, List.append_nil, ← List.append_assoc] at heq
      -- The payload has no blanks at its ends, so it is the row alone.
      have htrim : trim (front ++ text ++ back) = text := by
        rw [trim, Text.strip_append blank.1 blank.2]
        exact row.trim_eq
      rw [← Text.trim_trim, heq, htrim]
      exact .bare row

theorem readLists_of_bracketed {payload : List Char} {insides : List (List Char)}
    (h : Bracketed insides (trim payload)) : readLists payload = insides.mapM readList := by
  generalize hbody : trim payload = body at h
  cases h with
  | bare row => exact readLists_bare (hbody ▸ row)
  | outer blank row => exact readLists_outer row blank hbody

/-- What is neither empty nor made of groups in brackets is refused as a whole. -/
theorem readLists_cases (payload : List Char) :
    (trim payload = [] ∧ readLists payload = .ok []) ∨
    (∃ insides, Bracketed insides (trim payload)) ∨
    readLists payload = .error (.notGroups (String.ofList (trim payload))) ∨
    readLists payload = .error (.unbalanced (String.ofList (trim payload))) := by
  by_cases hempty : trim payload = []
  · exact .inl ⟨hempty, by rw [readLists, if_pos hempty]⟩
  · rw [readLists, if_neg hempty]
    cases hscan : scanGroups .before ((outer? (trim payload)).getD (trim payload)) with
    | none => exact .inr (.inr (.inl (by simp only [hscan])))
    | some groups =>
        by_cases hclosed : (outer? (trim payload)).isSome = groups.closed
        · exact .inr (.inl ⟨_, bracketed_of_scanGroups hscan hclosed⟩)
        · exact .inr (.inr (.inr (by simp only [hscan, if_neg hclosed])))

theorem mapM_readList_ok_iff {insides : List (List Char)} {lists : List (List Int)} :
    insides.mapM readList = .ok lists ↔
      List.Forall₂ (fun ids inside => Tokens (inside.splitOn ',') ids) lists insides := by
  rw [mapM_eq_ok_iff]
  simp only [readList_ok_iff]

theorem mapM_eq_error {α β ε : Type} {f : β → Except ε α} {ys : List β} {fault : ε}
    (h : ys.mapM f = .error fault) : ∃ y ∈ ys, f y = .error fault := by
  induction ys with
  | nil => cases h
  | cons y rest ih =>
      rw [List.mapM_cons] at h
      cases hy : f y with
      | error found =>
          obtain rfl : found = fault := by simpa [hy, bind, Except.bind] using h
          exact ⟨y, List.mem_cons_self, hy⟩
      | ok x =>
          cases hrest : rest.mapM f with
          | error found =>
              obtain rfl : found = fault := by simpa [hy, hrest, bind, Except.bind] using h
              obtain ⟨z, hz, hread⟩ := ih hrest
              exact ⟨z, List.mem_cons_of_mem _ hz, hread⟩
          | ok more => simp [hy, hrest, bind, Except.bind, pure, Except.pure] at h

/-- Inside the brackets only a token can be at fault. -/
theorem mapM_readList_error {insides : List (List Char)} {fault : PayloadFault}
    (h : insides.mapM readList = .error fault) : ∃ token, fault = .notInteger token := by
  obtain ⟨inside, -, hinside⟩ := mapM_eq_error h
  rw [readList] at hinside
  obtain ⟨token, -, htoken⟩ := mapM_eq_error hinside
  rw [readElement] at htoken
  split at htoken
  · cases htoken
  · exact ⟨_, (Except.error.inj htoken).symm⟩

/-! ## Written lists -/

/-- The integers of a list with nothing but commas between them. -/
def insideChars (ids : List Int) : List Char :=
  [','].intercalate (ids.map integerChars)

/-- Lists in brackets with nothing but commas between them. -/
def bareChars (lists : List (List Int)) : List Char :=
  [','].intercalate (lists.map fun ids => '[' :: (insideChars ids ++ [']']))

/-- The same inside an outer pair. -/
def wrappedChars (lists : List (List Int)) : List Char :=
  '[' :: (bareChars lists ++ [']'])

theorem ids_insideChars (ids : List Int) : Ids ids (insideChars ids) := by
  have hnone : Blank [] := by simp [Blank]
  unfold insideChars
  induction ids with
  | nil => exact .none hnone
  | cons id rest ih =>
      cases rest with
      | nil => simpa using @Ids.last id [] [] ⟨hnone, hnone⟩
      | cons next rest =>
          rw [List.map_cons, List.map_cons, List.intercalate_cons_cons]
          simpa using @Ids.cons id _ _ [] [] _ ⟨hnone, hnone⟩ ih

theorem row_bareChars {lists : List (List Int)} (h : lists ≠ []) :
    Row (lists.map insideChars) (bareChars lists) := by
  have hnone : Blank [] := by simp [Blank]
  have hplain (ids : List Int) : Unbracketed (insideChars ids) := (ids_insideChars ids).unbracketed
  unfold bareChars
  induction lists with
  | nil => exact absurd rfl h
  | cons ids rest ih =>
      cases rest with
      | nil => simpa using Row.last (hplain ids)
      | cons next rest =>
          rw [List.map_cons, List.map_cons, List.map_cons, List.map_cons,
            List.intercalate_cons_cons]
          simpa using Row.cons (hplain ids) ⟨hnone, hnone⟩ (ih (by simp))

theorem readLists_written {lists : List (List Int)} (h : lists ≠ [])
    (hbounds : ∀ ids ∈ lists, ∀ id ∈ ids, int64.holds id) :
    readLists (bareChars lists) = .ok lists ∧ readLists (wrappedChars lists) = .ok lists := by
  have hids : List.Forall₂ Ids lists (lists.map insideChars) :=
    List.forall₂_map_right_iff.2 (List.forall₂_same.2 fun ids _ => ids_insideChars ids)
  have hrow := row_bareChars h
  have hread {text : List Char} (hspells : Spells lists text) : readLists text = .ok lists :=
    (readLists_of_spells hspells hbounds).resolve_right fun hnone => h hnone.1
  have hnone : Blank [] := by simp [Blank]
  refine ⟨hread (.bare hids hrow), hread ?_⟩
  simpa [wrappedChars] using Spells.outer hids hrow ⟨hnone, hnone⟩

/-- A payload is read as lists exactly when it is empty or made of groups in brackets, bare or in one
outer pair, with nothing but integers and blanks between their commas, and then the lists are those
of its groups. There is always a group to read, and written lists are read back in both forms. -/
theorem readLists_accepts_exactly (payload : List Char) :
    (∀ lists, readLists payload = .ok lists ↔
      (trim payload = [] ∧ lists = []) ∨
      ∃ insides, Bracketed insides (trim payload) ∧
        List.Forall₂ (fun ids inside => Tokens (inside.splitOn ',') ids) lists insides) ∧
    readLists payload ≠ .error .noLists ∧
    ∀ lists ≠ [], (∀ ids ∈ lists, ∀ id ∈ ids, int64.holds id) →
      readLists (bareChars lists) = .ok lists ∧ readLists (wrappedChars lists) = .ok lists := by
  refine ⟨fun lists => ⟨fun h => ?_, ?_⟩, fun h => ?_, fun lists => readLists_written⟩
  · rcases readLists_cases payload with ⟨hempty, hread⟩ | ⟨insides, hgroups⟩ | hread | hread
    · rw [hread] at h
      exact .inl ⟨hempty, (Except.ok.inj h).symm⟩
    · rw [readLists_of_bracketed hgroups] at h
      exact .inr ⟨insides, hgroups, mapM_readList_ok_iff.1 h⟩
    · rw [hread] at h
      cases h
    · rw [hread] at h
      cases h
  · rintro (⟨hempty, rfl⟩ | ⟨insides, hgroups, htokens⟩)
    · rw [readLists, if_pos hempty]
    · rw [readLists_of_bracketed hgroups, mapM_readList_ok_iff.2 htokens]
  · rcases readLists_cases payload with ⟨-, hread⟩ | ⟨insides, hgroups⟩ | hread | hread
    · rw [hread] at h
      cases h
    · rw [readLists_of_bracketed hgroups] at h
      obtain ⟨token, htoken⟩ := mapM_readList_error h
      cases htoken
    · rw [hread] at h
      cases h
    · rw [hread] at h
      cases h

/-- Blanks wherever they may stand, and a token that is nothing else. -/
theorem readLists_accepts_exactly_spaced :
    readLists " [ [69,+72] , [ ,-5] ]\n".toList = .ok [[69, 72], [-5]] := by
  have hread := (readLists_accepts_exactly " [ [69,+72] , [ ,-5] ]\n".toList).1 [[69, 72], [-5]]
  have hbody : trim " [ [69,+72] , [ ,-5] ]\n".toList =
      '[' :: ([' '] ++ ("[69,+72] , [ ,-5]".toList ++ ([' '] ++ [']']))) := by decide +kernel
  have hrow : Row ["69,+72".toList, " ,-5".toList] "[69,+72] , [ ,-5]".toList :=
    @Row.cons _ [' '] [' '] _ _ ⟨by decide +kernel, by decide +kernel⟩
      ⟨by decide, by decide⟩ (.last ⟨by decide +kernel, by decide +kernel⟩)
  have hfirst : Tokens ("69,+72".toList.splitOn ',') [69, 72] := by
    rw [show "69,+72".toList.splitOn ',' = [['6', '9'], ['+', '7', '2']] by decide +kernel]
    exact .integer (.plain (by decide)) (by decide)
      (.integer (.plus (by decide)) (by decide) .nil)
  have hsecond : Tokens (" ,-5".toList.splitOn ',') [-5] := by
    rw [show " ,-5".toList.splitOn ',' = [[' '], ['-', '5']] by decide +kernel]
    exact .blank (by decide)
      (.integer (.minus (by decide)) (by decide) .nil)
  refine hread.2 (.inr ⟨_, ?_, .cons hfirst (.cons hsecond .nil)⟩)
  rw [hbody]
  exact .outer ⟨by decide, by decide⟩ hrow

end Payload

end ArmLink
