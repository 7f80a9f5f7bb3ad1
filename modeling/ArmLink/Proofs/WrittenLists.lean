import Mathlib.Data.List.Forall2
import Mathlib.Data.List.TakeWhile
import ArmLink.Proofs.WrittenReply

/-!
# Lists of integers as they are written

A controller writes its lists with blanks wherever it likes, bare or inside one
more pair of brackets. `Spells` is that way of writing, said of the text and the
lists it stands for, with no word on how it is read: `Ids` is the inside of one
list, `Row` are the brackets and what stands between them.

The two levels are read one after the other, and so they are proved. The scan sees
only brackets, and for it what is inside does not matter as long as no bracket is
in it. `readList` sees one inside, cut at its commas. What ties them together is
that neither a blank nor a written integer holds a bracket or a comma.
-/

namespace ArmLink

open ArmLink.Decimal (int64 integerChars readInteger)

namespace Text

/-- Nothing but blanks. -/
def Blank (cs : List Char) : Prop :=
  ∀ c ∈ cs, isBlank c = true

instance (cs : List Char) : Decidable (Blank cs) :=
  decidable_of_iff (cs.all isBlank = true) List.all_eq_true

theorem Blank.not_mem {cs : List Char} (h : Blank cs) {c : Char} (hc : isBlank c = false) :
    c ∉ cs := fun hmem => by
  rw [h c hmem] at hc
  cases hc

theorem strip_append {p : Char → Bool} {front core back : List Char}
    (hfront : ∀ c ∈ front, p c = true) (hback : ∀ c ∈ back, p c = true) :
    strip p (front ++ core ++ back) = strip p core := by
  unfold strip
  rw [List.append_assoc, List.dropWhile_append_of_pos hfront, List.dropWhile_append]
  split
  · next hempty =>
      have hcore : core.dropWhile p = [] := List.isEmpty_iff.1 hempty
      have hnone : back.dropWhile p = [] := List.dropWhile_eq_nil_iff.2 hback
      rw [hcore, hnone]
  · rw [List.reverse_append,
      List.dropWhile_append_of_pos fun c hc => hback c (List.mem_reverse.1 hc)]

theorem strip_of_none {p : Char → Bool} {cs : List Char} (h : ∀ c ∈ cs, p c = false) :
    strip p cs = cs := by
  have hkeep {xs : List Char} (hxs : ∀ c ∈ xs, p c = false) : xs.dropWhile p = xs := by
    cases xs with
    | nil => rfl
    | cons x rest => rw [List.dropWhile_cons_of_neg (by simp [hxs x List.mem_cons_self])]
  unfold strip
  rw [hkeep h, hkeep fun c hc => h c (List.mem_reverse.1 hc), List.reverse_reverse]

theorem trim_blank {cs : List Char} (h : Blank cs) : trim cs = [] := by
  have hnone : cs.dropWhile isBlank = [] := List.dropWhile_eq_nil_iff.2 h
  rw [trim, strip, hnone]
  rfl

end Text

/-- A written integer holds none of the characters that lists are made of. -/
theorem Decimal.plain_integerChars (n : Int) :
    ∀ c ∈ integerChars n, Text.isBlank c = false ∧ c ≠ '[' ∧ c ≠ ']' ∧ c ≠ ',' := by
  have hdigits (m : Nat) : ∀ c ∈ digits m,
      Text.isBlank c = false ∧ c ≠ '[' ∧ c ≠ ']' ∧ c ≠ ',' := fun c hc => by
    obtain ⟨d, hd, rfl⟩ := digits_all m c hc
    have hall : ∀ d < 10, Text.isBlank (Text.digitChar d) = false ∧ Text.digitChar d ≠ '[' ∧
        Text.digitChar d ≠ ']' ∧ Text.digitChar d ≠ ',' := by decide
    exact hall d hd
  intro c hc
  rw [integerChars] at hc
  split at hc
  · rcases List.mem_cons.1 hc with rfl | hc
    · decide
    · exact hdigits _ c hc
  · exact hdigits _ c hc

namespace Payload

open ArmLink.Text (Blank isBlank trim)

/-- The inside of a list: its integers with commas between them, and blanks around each. -/
inductive Ids : List Int → List Char → Prop where
  | none {blanks : List Char} (blank : Blank blanks) : Ids [] blanks
  | last {id : Int} {before after : List Char} (blank : Blank before ∧ Blank after) :
      Ids [id] (before ++ integerChars id ++ after)
  | cons {id next : Int} {ids : List Int} {before after rest : List Char}
      (blank : Blank before ∧ Blank after) (others : Ids (next :: ids) rest) :
      Ids (id :: next :: ids) (before ++ integerChars id ++ after ++ ',' :: rest)

/-- No bracket is in a text. -/
def Unbracketed (text : List Char) : Prop :=
  '[' ∉ text ∧ ']' ∉ text

/-- Insides in brackets, with commas and blanks between the brackets. -/
inductive Row : List (List Char) → List Char → Prop where
  | last {inside : List Char} (plain : Unbracketed inside) :
      Row [inside] ('[' :: (inside ++ [']']))
  | cons {inside before after rest : List Char} {insides : List (List Char)}
      (plain : Unbracketed inside) (blank : Blank before ∧ Blank after)
      (others : Row insides rest) : Row (inside :: insides) ('[' :: (inside ++ ']' :: (before ++ ',' :: (after ++ rest))))

/-- A way of writing lists of integers. -/
inductive Spells : List (List Int) → List Char → Prop where
  | nothing : Spells [] []
  /-- No list at all inside the outer pair. -/
  | hollow {blanks : List Char} (blank : Blank blanks) : Spells [] ('[' :: (blanks ++ [']']))
  | bare {lists : List (List Int)} {insides : List (List Char)} {text : List Char}
      (ids : List.Forall₂ Ids lists insides) (row : Row insides text) : Spells lists text
  | outer {lists : List (List Int)} {insides : List (List Char)} {text front back : List Char}
      (ids : List.Forall₂ Ids lists insides) (row : Row insides text)
      (blank : Blank front ∧ Blank back) :
      Spells lists ('[' :: (front ++ (text ++ (back ++ [']']))))

/-! ## One inside -/

section

variable {ids : List Int} {inside : List Char}

theorem unbracketed_blank {blanks : List Char} (h : Blank blanks) : Unbracketed blanks :=
  ⟨h.not_mem (by decide), h.not_mem (by decide)⟩

theorem piece_integerChars {id : Int} {before after : List Char}
    (h : Blank before ∧ Blank after) :
    ',' ∉ before ++ integerChars id ++ after ∧
      trim (before ++ integerChars id ++ after) = integerChars id := by
  have hplain := Decimal.plain_integerChars id
  constructor
  · rw [List.mem_append, List.mem_append, not_or, not_or]
    exact ⟨⟨h.1.not_mem (by decide), fun hc => (hplain _ hc).2.2.2 rfl⟩, h.2.not_mem (by decide)⟩
  · rw [trim, Text.strip_append h.1 h.2]
    exact Text.strip_of_none fun c hc => (hplain c hc).1

/-- A character that is no blank, no comma and in no written integer is not inside a list. -/
theorem Ids.not_mem (h : Ids ids inside) {c : Char} (hblank : isBlank c = false) (hcomma : c ≠ ',')
    (hids : ∀ id : Int, c ∉ integerChars id) : c ∉ inside := by
  have hpiece {id : Int} {before after : List Char} (blank : Blank before ∧ Blank after) :
      c ∉ before ++ integerChars id ++ after := by
    rw [List.mem_append, List.mem_append, not_or, not_or]
    exact ⟨⟨blank.1.not_mem hblank, hids id⟩, blank.2.not_mem hblank⟩
  induction h with
  | none blank => exact blank.not_mem hblank
  | last blank => exact hpiece blank
  | cons blank _ ih =>
      rw [List.mem_append, List.mem_cons, not_or, not_or]
      exact ⟨hpiece blank, hcomma, ih⟩

theorem Ids.unbracketed (h : Ids ids inside) : Unbracketed inside :=
  ⟨h.not_mem (by decide) (by decide) fun id hc => (Decimal.plain_integerChars id _ hc).2.1 rfl,
    h.not_mem (by decide) (by decide) fun id hc => (Decimal.plain_integerChars id _ hc).2.2.1 rfl⟩

/-- Cut at its commas, an inside gives its integers as they are written. -/
theorem Ids.pieces (h : Ids ids inside) :
    ((inside.splitOn ',').map trim).filter (· ≠ []) = ids.map integerChars := by
  have hne (id : Int) : integerChars id ≠ [] := by
    obtain ⟨a, rest, hhead, -⟩ := Reply.integerChars_head id
    rw [hhead]
    exact List.cons_ne_nil a rest
  induction h with
  | none blank =>
      rw [List.splitOn_eq_singleton (blank.not_mem (by decide))]
      simp [Text.trim_blank blank]
  | last blank =>
      obtain ⟨hcomma, htrim⟩ := piece_integerChars blank
      rw [List.splitOn_eq_singleton hcomma, List.map_singleton, htrim]
      simp [hne]
  | cons blank _ ih =>
      obtain ⟨hcomma, htrim⟩ := piece_integerChars blank
      rw [List.splitOn_append_cons_self_of_not_mem hcomma, List.map_cons, htrim,
        List.filter_cons_of_pos (by simp [hne]), ih]
      rfl

end

theorem mapM_eq_ok_iff {α β ε : Type} {f : β → Except ε α} {xs : List α} {ys : List β} :
    ys.mapM f = .ok xs ↔ List.Forall₂ (fun x y => f y = .ok x) xs ys := by
  constructor
  · intro h
    induction ys generalizing xs with
    | nil =>
        obtain rfl := Except.ok.inj h
        exact .nil
    | cons y rest ih =>
        rw [List.mapM_cons] at h
        cases hy : f y with
        | error fault => simp [hy, bind, Except.bind] at h
        | ok x =>
            cases hrest : rest.mapM f with
            | error fault => simp [hy, hrest, bind, Except.bind] at h
            | ok more =>
                obtain rfl : x :: more = xs := by
                  simpa [hy, hrest, bind, Except.bind, pure, Except.pure] using h
                exact .cons hy (ih hrest)
  · intro h
    induction h with
    | nil => rfl
    | cons hx _ ih =>
        rw [List.mapM_cons, hx, ih]
        rfl

theorem Ids.readList {ids : List Int} {inside : List Char} (h : Ids ids inside)
    (hbounds : ∀ id ∈ ids, int64.holds id) : Payload.readList inside = .ok ids := by
  rw [Payload.readList, h.pieces]
  refine mapM_eq_ok_iff.2 (List.forall₂_map_right_iff.2 (List.forall₂_same.2 fun id hid => ?_))
  have hread : readInteger int64 (integerChars id) = .ok id :=
    (Decimal.readInteger_ok_iff (by decide) (by decide)).2
      ⟨Decimal.numeral_integerChars id, hbounds id hid⟩
  rw [readElement, hread]

/-! ## The brackets -/

section

variable {inside text tail : List Char} {insides : List (List Char)}

theorem scanGroups_before_blank {blanks : List Char} (h : Blank blanks) (cs : List Char) :
    scanGroups .before (blanks ++ cs) = scanGroups .before cs := by
  induction blanks with
  | nil => rfl
  | cons c rest ih =>
      have hc : isBlank c = true := h c List.mem_cons_self
      have hopen : c ≠ '[' := fun heq => by
        rw [heq] at hc
        cases hc
      rw [List.cons_append, scanGroups, if_neg hopen, if_pos hc]
      exact ih fun d hd => h d (List.mem_cons_of_mem c hd)

theorem scanGroups_behind_blank {blanks : List Char} (h : Blank blanks) (cs : List Char) :
    scanGroups .behind (blanks ++ cs) = scanGroups .behind cs := by
  induction blanks with
  | nil => rfl
  | cons c rest ih =>
      have hc : isBlank c = true := h c List.mem_cons_self
      have hne {d : Char} (hd : isBlank d = false) : c ≠ d := fun heq => by
        rw [heq, hd] at hc
        cases hc
      rw [List.cons_append, scanGroups, if_neg (hne (by decide)), if_neg (hne (by decide)),
        if_pos hc]
      exact ih fun d hd => h d (List.mem_cons_of_mem c hd)

/-- Inside a list only its closing bracket matters. -/
theorem scanGroups_inside (h : Unbracketed inside) (taken tail : List Char) :
    scanGroups (.inside taken) (inside ++ ']' :: tail) =
      (scanGroups .behind tail).map (·.cons (taken.reverse ++ inside)) := by
  induction inside generalizing taken with
  | nil =>
      rw [List.nil_append, scanGroups, if_neg (by decide), if_pos rfl, List.append_nil]
  | cons c rest ih =>
      have hrest : Unbracketed rest :=
        ⟨fun hc => h.1 (List.mem_cons_of_mem c hc), fun hc => h.2 (List.mem_cons_of_mem c hc)⟩
      have hopen : c ≠ '[' := fun heq => h.1 (heq ▸ List.mem_cons_self)
      have hclose : c ≠ ']' := fun heq => h.2 (heq ▸ List.mem_cons_self)
      rw [List.cons_append, scanGroups, if_neg hopen, if_neg hclose, ih hrest, List.reverse_cons,
        List.append_assoc]
      rfl

theorem scanGroups_list (h : Unbracketed inside) (tail : List Char) :
    scanGroups .before ('[' :: (inside ++ ']' :: tail)) =
      (scanGroups .behind tail).map (·.cons inside) := by
  rw [scanGroups, if_pos rfl, scanGroups_inside h]
  rfl

/-- A row gives its insides, and the scan goes on behind it. -/
theorem Row.scanGroups (h : Row insides text) (tail : List Char) :
    Payload.scanGroups .before (text ++ tail) =
      (Payload.scanGroups .behind tail).map fun groups =>
        { groups with lists := insides ++ groups.lists } := by
  induction h with
  | last plain =>
      rw [List.cons_append, List.append_assoc, List.singleton_append, scanGroups_list plain]
      rfl
  | cons plain blank _ ih =>
      rw [List.cons_append, List.append_assoc, List.cons_append, List.append_assoc,
        List.cons_append, List.append_assoc, scanGroups_list plain,
        scanGroups_behind_blank blank.1, Payload.scanGroups, if_pos rfl,
        scanGroups_before_blank blank.2, ih, Option.map_map]
      rfl

/-- Behind the bracket of a list that has none inside, no other bracket opens before it closes. -/
theorem head_dropWhile_ne (h : Unbracketed inside) (tail : List Char) :
    ((inside ++ ']' :: tail).dropWhile isBlank).head? ≠ some '[' := by
  induction inside with
  | nil =>
      rw [List.nil_append, List.dropWhile_cons_of_neg (by decide)]
      simp
  | cons c rest ih =>
      have hrest : Unbracketed rest :=
        ⟨fun hc => h.1 (List.mem_cons_of_mem c hc), fun hc => h.2 (List.mem_cons_of_mem c hc)⟩
      rw [List.cons_append]
      by_cases hc : isBlank c = true
      · rw [List.dropWhile_cons_of_pos hc]
        exact ih hrest
      · rw [List.dropWhile_cons_of_neg hc]
        intro heq
        exact h.1 (Option.some.inj heq ▸ List.mem_cons_self)

theorem outer?_list (h : Unbracketed inside) (tail : List Char) :
    outer? ('[' :: (inside ++ ']' :: tail)) = none := by
  rw [outer?, if_neg (head_dropWhile_ne h tail)]

/-- A row has no outer pair: its first bracket is that of a list. -/
theorem Row.outer? (h : Row insides text) : Payload.outer? text = none := by
  cases h with
  | last plain => exact outer?_list plain []
  | cons plain => exact outer?_list plain _

/-- Between the insides of a row there are only brackets, commas and blanks. -/
theorem Row.not_mem (h : Row insides text) {c : Char} (hblank : isBlank c = false)
    (hmarks : c ∉ ['[', ']', ',']) (hinsides : ∀ inside ∈ insides, c ∉ inside) : c ∉ text := by
  simp only [List.mem_cons, List.not_mem_nil, or_false, not_or] at hmarks
  obtain ⟨hopen, hclose, hcomma⟩ := hmarks
  induction h with
  | last plain =>
      have hinside := hinsides _ List.mem_cons_self
      simp [hopen, hclose, hinside]
  | cons plain blank _ ih =>
      have hinside := hinsides _ List.mem_cons_self
      have hrest := ih fun inside hmem => hinsides inside (List.mem_cons_of_mem _ hmem)
      have hbefore := blank.1.not_mem hblank
      have hafter := blank.2.not_mem hblank
      simp [hopen, hclose, hcomma, hinside, hbefore, hafter, hrest]

theorem Row.ends (h : Row insides text) : ∃ middle, text = '[' :: (middle ++ [']']) := by
  induction h with
  | last => exact ⟨_, rfl⟩
  | @cons inside before after rest insides _ _ _ ih =>
      obtain ⟨middle, rfl⟩ := ih
      refine ⟨inside ++ ']' :: (before ++ ',' :: (after ++ '[' :: middle)), ?_⟩
      simp

end

/-! ## Whole payloads -/

theorem trim_bracketed (middle : List Char) :
    trim ('[' :: (middle ++ [']'])) = '[' :: (middle ++ [']']) :=
  Text.strip_of_ends (by decide) (by decide)

theorem Row.trim_eq {insides : List (List Char)} {text : List Char} (h : Row insides text) :
    trim text = text := by
  obtain ⟨middle, rfl⟩ := h.ends
  exact trim_bracketed middle

theorem trim_outer (front text back : List Char) :
    trim ('[' :: (front ++ (text ++ (back ++ [']'])))) =
      '[' :: (front ++ (text ++ (back ++ [']']))) := by
  rw [← List.append_assoc text, ← List.append_assoc front]
  exact trim_bracketed _

theorem Row.ne_nil {insides : List (List Char)} {text : List Char} (h : Row insides text) :
    insides ≠ [] := by
  cases h <;> exact List.cons_ne_nil _ _

/-- Of a row there is always a list to read. -/
theorem readInsides_eq {insides : List (List Char)} (h : insides ≠ []) :
    readInsides insides = insides.mapM readList := by
  rw [readInsides]
  cases hread : insides.mapM readList with
  | error fault => rfl
  | ok lists =>
      have hne : lists ≠ [] := by
        rintro rfl
        cases insides with
        | nil => exact h rfl
        | cons inside rest => cases mapM_eq_ok_iff.1 hread
      show (if lists = [] then _ else _) = _
      rw [if_neg hne]

/-- The first shape of two: no outer pair, and nothing behind the last list. -/
theorem readLists_bare {insides : List (List Char)} {payload : List Char}
    (h : Row insides (trim payload)) : readLists payload = insides.mapM readList := by
  have hne : trim payload ≠ [] := by
    obtain ⟨middle, heq⟩ := h.ends
    rw [heq]
    exact List.cons_ne_nil _ _
  have hscan : scanGroups .before (trim payload) = some ⟨insides, false⟩ := by
    have hrow := h.scanGroups []
    rw [List.append_nil] at hrow
    simpa [scanGroups] using hrow
  rw [readLists, if_neg hne, h.outer?]
  simp only [Option.getD_none, hscan]
  exact readInsides_eq h.ne_nil

/-- The second shape: the list behind the first bracket begins with a bracket of its own, and one
bracket is left over at the end. -/
theorem readLists_outer {insides : List (List Char)} {payload text front back : List Char}
    (h : Row insides text) (blank : Blank front ∧ Blank back)
    (htrim : trim payload = '[' :: (front ++ (text ++ (back ++ [']'])))) :
    readLists payload = insides.mapM readList := by
  have houter : outer? ('[' :: (front ++ (text ++ (back ++ [']'])))) =
      some (front ++ (text ++ (back ++ [']']))) := by
    obtain ⟨middle, htext⟩ := h.ends
    rw [outer?, List.dropWhile_append_of_pos blank.1, htext, List.cons_append,
      List.dropWhile_cons_of_neg (by decide), List.head?_cons, if_pos rfl]
  have hscan : scanGroups .before (front ++ (text ++ (back ++ [']']))) = some ⟨insides, true⟩ := by
    -- The bracket that is left over is that of the outer pair.
    have hleft : scanGroups .behind (back ++ [']']) = some ⟨[], true⟩ := by
      rw [scanGroups_behind_blank blank.2]
      rfl
    rw [scanGroups_before_blank blank.1, h.scanGroups, hleft]
    simp
  rw [readLists, htrim, if_neg (List.cons_ne_nil _ _), houter]
  simp only [Option.getD_some, hscan]
  exact readInsides_eq h.ne_nil

/-- What is spelled is read, except that no list at all reads as one empty list inside an outer
pair. -/
theorem readLists_of_spells {lists : List (List Int)} {text : List Char} (h : Spells lists text)
    (hbounds : ∀ ids ∈ lists, ∀ id ∈ ids, int64.holds id) :
    readLists text = .ok lists ∨ lists = [] ∧ readLists text = .ok [[]] := by
  have hread {insides : List (List Char)} (hids : List.Forall₂ Ids lists insides) :
      insides.mapM readList = .ok lists := by
    have hboth := (List.forall₂_and_left lists insides).2 ⟨hbounds, hids⟩
    exact mapM_eq_ok_iff.2 (hboth.imp fun _ _ h => h.2.readList h.1)
  cases h with
  | nothing => exact .inl rfl
  | hollow blank =>
      -- What looks like an outer pair is read as a list, and nothing is in it.
      have hrow := Row.last (unbracketed_blank blank)
      refine .inr ⟨rfl, (readLists_bare (hrow.trim_eq.symm ▸ hrow)).trans ?_⟩
      exact mapM_eq_ok_iff.2 (.cons ((Ids.none blank).readList (by simp)) .nil)
  | bare ids row => exact .inl ((readLists_bare (row.trim_eq.symm ▸ row)).trans (hread ids))
  | outer ids row blank =>
      exact .inl ((readLists_outer row blank (trim_outer _ _ _)).trans (hread ids))

/-- What spells lists cannot end a reply before its time. -/
theorem Spells.unended {lists : List (List Int)} {text : List Char} (h : Spells lists text) :
    Reply.terminator ∉ text := by
  have hblank : isBlank Reply.terminator = false := by decide
  have hinsides {lists : List (List Int)} {insides : List (List Char)}
      (ids : List.Forall₂ Ids lists insides) : ∀ inside ∈ insides, Reply.terminator ∉ inside := by
    induction ids with
    | nil => exact fun _ hmem => nomatch hmem
    | cons hids _ ih =>
        refine List.forall_mem_cons.2 ⟨hids.not_mem hblank (by decide) fun id hc => ?_, ih⟩
        exact (of_isUnmarked (isUnmarked_numeral _ (Decimal.integerChars_subset id hc))).2 rfl
  have hrow {lists : List (List Int)} {insides : List (List Char)} {text : List Char}
      (ids : List.Forall₂ Ids lists insides) (row : Row insides text) : Reply.terminator ∉ text :=
    row.not_mem hblank (by decide) (hinsides ids)
  cases h with
  | nothing => exact List.not_mem_nil
  | hollow blank =>
      have hblanks := blank.not_mem hblank
      simpa [Reply.terminator] using hblanks
  | bare ids row => exact hrow ids row
  | outer ids row blank =>
      have htext := hrow ids row
      have hfront := blank.1.not_mem hblank
      have hback := blank.2.not_mem hblank
      simpa [Reply.terminator, not_or] using ⟨hfront, htext, hback⟩

/-- Only blanks in front of it and behind it have to be taken off a payload. -/
theorem Spells.trim_eq {lists : List (List Int)} {text : List Char} (h : Spells lists text) :
    trim text = text := by
  cases h with
  | nothing => rfl
  | hollow => exact trim_bracketed _
  | bare _ row => exact row.trim_eq
  | outer => exact trim_outer _ _ _

end Payload

end ArmLink
