import ArmLink.Json.Document
import ArmLink.Proofs.FixedPoint

/-!
# What a JSON text is

`Spells` is the grammar of JSON, one constructor for each production. Blanks stand around
values and keys and nowhere else, a number has digits on both sides of its point and no
zero too many in front, and a string ends at the first quote that is not escaped.

To see that a text is no JSON it is enough to look at what it has outside its strings.
There the grammar puts punctuation, blanks, the characters of numbers and the letters of
three words, and nothing else, and that holds of every part of a text, whichever production
it comes from (`Spells.clean`). The argument needs no reader and does not depend on where
reading would fail.
-/

namespace ArmLink.Json

open ArmLink.Decimal (Figures Scale Spelled Unsigned digits fixedChars pointed rational?)

/-! ## The grammar -/

/-- Digits in front of a point: a single zero, or digits that do not begin with one. -/
inductive Whole : List Char → Prop where
  | zero : Whole ['0']
  | digits {c : Char} {rest : List Char} (first : c.isDigit = true ∧ c ≠ '0')
      (others : ∀ d ∈ rest, d.isDigit = true) : Whole (c :: rest)

/-- A point and the digits behind it, or nothing. -/
inductive Fraction : List Char → Prop where
  | none : Fraction []
  | digits {ds : List Char} {n : ℕ} (digits : Figures ds n) : Fraction ('.' :: ds)

inductive Magnitude : List Char → Prop where
  | intro {whole fraction scale : List Char} {e : ℤ} (front : Whole whole) (back : Fraction fraction)
      (power : Scale scale e) : Magnitude (whole ++ fraction ++ scale)

inductive Number : List Char → Prop where
  | plain {cs : List Char} (magnitude : Magnitude cs) : Number cs
  | minus {cs : List Char} (magnitude : Magnitude cs) : Number ('-' :: cs)

/-- The ways to write one character of a string, or one unit of UTF-16. -/
inductive Written : Piece → List Char → Prop where
  | plain {c : Char} (quote : c ≠ '"') (escape : c ≠ '\\') (control : 0x20 ≤ c.toNat) :
      Written (.char c) [c]
  | escaped {e c : Char} (escape : escaped? e = some c) : Written (.char c) ['\\', e]
  | unit {a b c d : Char} {n : ℕ} (digits : hex4? a b c d = some n) :
      Written (.unit n) ['\\', 'u', a, b, c, d]

/-- What stands between the quotes of a string. -/
inductive Quoted : List Piece → List Char → Prop where
  | nil : Quoted [] []
  | cons {piece : Piece} {pieces : List Piece} {cs rest : List Char} (first : Written piece cs)
      (others : Quoted pieces rest) : Quoted (piece :: pieces) (cs ++ rest)

def Blanks (cs : List Char) : Prop :=
  ∀ c ∈ cs, isSpace c = true

/-- The parts of a text: a value, the same with blanks around it, and what stands between brackets
and between braces. -/
inductive Part where
  | value (d : Document)
  | element (d : Document)
  | elements (ds : List Document)
  | members (ms : List (List Piece × Document))

inductive Spells : Part → List Char → Prop where
  | null : Spells (.value .null) ['n', 'u', 'l', 'l']
  | yes : Spells (.value (.boolean true)) ['t', 'r', 'u', 'e']
  | no : Spells (.value (.boolean false)) ['f', 'a', 'l', 's', 'e']
  | number {cs : List Char} (number : Number cs) : Spells (.value (.number cs)) cs
  | text {pieces : List Piece} {cs : List Char} (quoted : Quoted pieces cs) :
      Spells (.value (.text pieces)) ('"' :: cs ++ ['"'])
  | emptyArray {cs : List Char} (blanks : Blanks cs) : Spells (.value (.array [])) ('[' :: cs ++ [']'])
  | array {ds : List Document} {cs : List Char} (inside : Spells (.elements ds) cs) :
      Spells (.value (.array ds)) ('[' :: cs ++ [']'])
  | emptyObject {cs : List Char} (blanks : Blanks cs) :
      Spells (.value (.object [])) ('\x7b' :: cs ++ ['\x7d'])
  | object {ms : List (List Piece × Document)} {cs : List Char} (inside : Spells (.members ms) cs) :
      Spells (.value (.object ms)) ('\x7b' :: cs ++ ['\x7d'])
  | element {d : Document} {front cs back : List Char} (before : Blanks front)
      (value : Spells (.value d) cs) (behind : Blanks back) :
      Spells (.element d) (front ++ cs ++ back)
  | lastElement {d : Document} {cs : List Char} (element : Spells (.element d) cs) :
      Spells (.elements [d]) cs
  | moreElements {d : Document} {ds : List Document} {cs rest : List Char}
      (element : Spells (.element d) cs) (others : Spells (.elements ds) rest) :
      Spells (.elements (d :: ds)) (cs ++ [','] ++ rest)
  | lastMember {key : List Piece} {d : Document} {front name back cs : List Char}
      (before : Blanks front) (quoted : Quoted key name) (behind : Blanks back)
      (element : Spells (.element d) cs) :
      Spells (.members [(key, d)]) (front ++ ('"' :: name ++ ['"']) ++ back ++ [':'] ++ cs)
  | moreMembers {member : List Piece × Document} {ms : List (List Piece × Document)}
      {cs rest : List Char} (first : Spells (.members [member]) cs) (others : Spells (.members ms) rest) :
      Spells (.members (member :: ms)) (cs ++ [','] ++ rest)

/-- A text is a value with nothing but blanks around it. -/
def IsText (cs : List Char) : Prop :=
  ∃ d, Spells (.element d) cs

/-! ## Numbers -/

theorem Magnitude.spelled {cs : List Char} (h : Magnitude cs) : ∃ w, Unsigned cs w := by
  obtain ⟨front, back, power⟩ := h
  have hwhole {ds : List Char} (h : Whole ds) : ∃ n, Figures ds n := by
    cases h with
    | zero => exact ⟨0, by decide⟩
    | digits first others =>
        exact ⟨_, List.cons_ne_nil _ _, List.forall_mem_cons.2 ⟨first.1, others⟩, rfl⟩
  obtain ⟨n, hne, hall, hvalue⟩ := hwhole front
  cases back with
  | none =>
      rw [List.append_nil]
      exact ⟨_, .intro (.whole ⟨hne, hall, hvalue⟩) power⟩
  | digits digits =>
      exact ⟨_, .intro (.point ⟨List.append_ne_nil_of_left_ne_nil hne _,
        List.forall_mem_append.2 ⟨hall, digits.2.1⟩, rfl⟩) power⟩

/-- The numbers of JSON are among those that are read as numbers anywhere. -/
theorem Number.spelled {cs : List Char} (h : Number cs) : ∃ q, Spelled cs q := by
  cases h with
  | plain magnitude =>
      obtain ⟨w, hw⟩ := magnitude.spelled
      exact ⟨_, .plain hw⟩
  | minus magnitude =>
      obtain ⟨w, hw⟩ := magnitude.spelled
      exact ⟨_, .minus hw⟩

theorem whole_digits (n : ℕ) : Whole (digits n) := by
  have hfirst : ∀ d < 10, d ≠ 0 → Text.digitChar d ≠ '0' := by decide
  induction n using Nat.strongRecOn with
  | _ n ih =>
      by_cases hn : n < 10
      · rw [Decimal.digits_of_lt hn]
        by_cases hzero : n = 0
        · subst hzero
          exact .zero
        · exact .digits ⟨Text.isDigit_digitChar n hn, hfirst n hn hzero⟩ nofun
      · rw [Decimal.digits_step (Nat.le_of_not_lt hn)]
        have hlast := Text.isDigit_digitChar (n % 10) (Nat.mod_lt _ (by decide))
        have hfront := ih (n / 10) (by omega)
        generalize hds : digits (n / 10) = ds at hfront
        cases hfront with
        | zero =>
            -- A tenth of what is not a single digit is not zero.
            have hvalue := Decimal.digits_value (n / 10)
            rw [hds] at hvalue
            have hnone : Nat.ofDigitChars 10 ['0'] 0 = 0 := by decide
            omega
        | digits first others =>
            exact .digits first (List.forall_mem_append.2 ⟨others, by simpa using hlast⟩)

theorem Whole.take {ds : List Char} (h : Whole ds) {k : ℕ} (hk : 0 < k) : Whole (ds.take k) := by
  obtain ⟨k, rfl⟩ := Nat.exists_eq_succ_of_ne_zero hk.ne'
  cases h with
  | zero => rw [List.take_succ_cons, List.take_nil]; exact .zero
  | digits first others =>
      exact .digits first fun d hd => others d (List.mem_of_mem_take hd)

/-- Zeros are put in front only where no digit would be left there. -/
theorem whole_padded {places count n : ℕ} (h : count = places + 1 - (digits n).length) :
    Whole ((List.replicate count '0' ++ digits n).take (count + (digits n).length - places)) := by
  have hlength : 0 < (digits n).length := List.length_pos_of_ne_nil (Decimal.digits_ne_nil n)
  cases count with
  | zero =>
      rw [List.replicate_zero, List.nil_append]
      exact (whole_digits n).take (by omega)
  | succ count =>
      rw [show count + 1 + (digits n).length - places = 1 by omega]
      exact .zero

theorem magnitude_pointed (places n : ℕ) : Magnitude (pointed places n) := by
  generalize hcount : places + 1 - (digits n).length = count
  have hall := (Decimal.figures_padded count n).2.1
  have hfront := whole_padded hcount.symm
  have hlength : count + (digits n).length = (List.replicate count '0' ++ digits n).length := by
    rw [List.length_append, List.length_replicate]
  have hroom : places < count + (digits n).length := by omega
  rw [hlength] at hfront hroom
  rw [pointed, hcount]
  generalize List.replicate count '0' ++ digits n = padded at *
  split
  · next hzero =>
      rw [hzero, Nat.sub_zero, List.take_length] at hfront
      simpa using Magnitude.intro hfront .none .none
  · next hzero =>
      have hback : Figures (padded.drop (padded.length - places)) _ :=
        ⟨List.ne_nil_of_length_pos (by rw [List.length_drop]; omega),
          fun c hc => hall c (List.mem_of_mem_drop hc), rfl⟩
      simpa using Magnitude.intro hfront (.digits hback) .none

theorem number_fixedChars {x : Float} {q : ℚ} (h : rational? x = some q) (places : ℕ) :
    Number (fixedChars places x) := by
  obtain ⟨negative, m, e, hx, -⟩ := Decimal.parts_of_rational? h
  rw [fixedChars, hx]
  cases negative with
  | false => exact .plain (magnitude_pointed _ _)
  | true => exact .minus (magnitude_pointed _ _)

/-! ## Outside the strings -/

/-- Where a character stands. -/
inductive Place where
  | outside
  | inside
  | escaped
  deriving DecidableEq

def Place.next : Place → Char → Place
  | .outside, c => if c = '"' then .inside else .outside
  | .inside, c => if c = '"' then .outside else if c = '\\' then .escaped else .inside
  | .escaped, _ => .inside

def Place.behind (place : Place) (cs : List Char) : Place :=
  cs.foldl Place.next place

/-- The characters of a text that stand outside its strings. -/
def bare : Place → List Char → List Char
  | _, [] => []
  | place, c :: cs =>
    if place = .outside ∧ c ≠ '"' then c :: bare (place.next c) cs else bare (place.next c) cs

theorem bare_append (place : Place) (cs rest : List Char) :
    bare place (cs ++ rest) = bare place cs ++ bare (place.behind cs) rest := by
  induction cs generalizing place with
  | nil => rfl
  | cons c cs ih =>
      rw [List.cons_append, bare, bare, ih]
      split <;> rfl

/-- A part of a text that ends outside of strings if it begins there. -/
def Balanced (cs : List Char) : Prop :=
  Place.outside.behind cs = .outside

theorem Balanced.append {cs ds : List Char} (h : Balanced cs) (h' : Balanced ds) :
    Balanced (cs ++ ds) := by
  rw [Balanced, Place.behind, List.foldl_append]
  exact (congrArg (List.foldl _ · ds) h).trans h'

theorem Balanced.bare_append {cs : List Char} (h : Balanced cs) (rest : List Char) :
    bare .outside (cs ++ rest) = bare .outside cs ++ bare .outside rest := by
  rw [Json.bare_append, h]

theorem bare_of_not_mem {cs : List Char} (h : '"' ∉ cs) : bare .outside cs = cs ∧ Balanced cs := by
  induction cs with
  | nil => exact ⟨rfl, rfl⟩
  | cons c cs ih =>
      rw [List.mem_cons, not_or] at h
      obtain ⟨hbare, hbalanced⟩ := ih h.2
      have hnext : Place.outside.next c = .outside := if_neg (Ne.symm h.1)
      rw [bare, if_pos ⟨rfl, Ne.symm h.1⟩, hnext, hbare]
      exact ⟨rfl, (congrArg (List.foldl _ · cs) hnext).trans hbalanced⟩

/-- The letters and marks that may stand outside a string. -/
def signs : List Char :=
  ['\x7b', '\x7d', '[', ']', ':', ',', 'n', 'u', 'l', 't', 'r', 'e', 'f', 'a', 's']

def Allowed (c : Char) : Prop :=
  c.isDigit = true ∨ c ∈ Decimal.marks ∨ isSpace c = true ∨ c ∈ signs

/-- A balanced part that has outside its strings only what is allowed there. -/
structure Clean (cs : List Char) : Prop where
  balanced : Balanced cs
  allowed : ∀ c ∈ bare .outside cs, Allowed c

theorem Clean.append {cs ds : List Char} (h : Clean cs) (h' : Clean ds) : Clean (cs ++ ds) := by
  refine ⟨h.balanced.append h'.balanced, ?_⟩
  rw [h.balanced.bare_append]
  exact List.forall_mem_append.2 ⟨h.allowed, h'.allowed⟩

theorem clean_of_allowed {cs : List Char} (h : ∀ c ∈ cs, Allowed c) : Clean cs := by
  have hquote : ¬ Allowed '"' := by
    rw [Allowed]
    decide
  obtain ⟨hbare, hbalanced⟩ := bare_of_not_mem fun hmem => hquote (h _ hmem)
  exact ⟨hbalanced, by rwa [hbare]⟩

theorem Blanks.clean {cs : List Char} (h : Blanks cs) : Clean cs :=
  clean_of_allowed fun c hc => .inr (.inr (.inl (h c hc)))

theorem Number.clean {cs : List Char} (h : Number cs) : Clean cs := by
  obtain ⟨q, hq⟩ := h.spelled
  exact clean_of_allowed fun c hc => (hq.isNumeric c hc).imp_right .inl

theorem clean_signs {cs : List Char} (h : ∀ c ∈ cs, c ∈ signs) : Clean cs :=
  clean_of_allowed fun c hc => .inr (.inr (.inr (h c hc)))

theorem hex4?_ordinary {a b c d : Char} {n : ℕ} (h : hex4? a b c d = some n) :
    ∀ x ∈ [a, b, c, d], x ≠ '"' ∧ x ≠ '\\' := by
  have hordinary {x : Char} {k : ℕ} (hx : Text.hexValue? x = some k) : x ≠ '"' ∧ x ≠ '\\' := by
    constructor <;> rintro rfl <;> simp [Text.hexValue?] at hx
  simp only [hex4?, Option.bind_eq_bind, Option.bind_eq_some_iff] at h
  obtain ⟨_, ha, _, hb, _, hc, _, hd, -⟩ := h
  simp only [List.forall_mem_cons, List.not_mem_nil, false_imp_iff, implies_true, and_true]
  exact ⟨hordinary ha, hordinary hb, hordinary hc, hordinary hd⟩

/-- No piece of a string ends it. -/
theorem Written.inside {piece : Piece} {cs : List Char} (h : Written piece cs) :
    bare .inside cs = [] ∧ Place.inside.behind cs = .inside := by
  cases h with
  | plain quote escape control => simp [bare, Place.behind, Place.next, quote, escape]
  | escaped => simp [bare, Place.behind, Place.next]
  | unit digits =>
      have hordinary := hex4?_ordinary digits
      simp only [List.forall_mem_cons, List.not_mem_nil, false_imp_iff, implies_true, and_true]
        at hordinary
      obtain ⟨ha, hb, hc, hd⟩ := hordinary
      simp [bare, Place.behind, Place.next, ha, hb, hc, hd]

theorem Quoted.inside {pieces : List Piece} {cs : List Char} (h : Quoted pieces cs) :
    bare .inside cs = [] ∧ Place.inside.behind cs = .inside := by
  induction h with
  | nil => exact ⟨rfl, rfl⟩
  | cons first _ ih =>
      obtain ⟨hbare, hbehind⟩ := first.inside
      rw [bare_append, hbare, hbehind, Place.behind, List.foldl_append]
      exact ⟨ih.1, (congrArg (List.foldl _ · _) hbehind).trans ih.2⟩

theorem Quoted.clean {pieces : List Piece} {cs : List Char} (h : Quoted pieces cs) :
    Clean ('"' :: cs ++ ['"']) := by
  obtain ⟨hbare, hbehind⟩ := h.inside
  have hopened : bare .outside ('"' :: cs) = [] ∧ Place.outside.behind ('"' :: cs) = .inside := by
    rw [bare, if_neg (by simp)]
    exact ⟨hbare, hbehind⟩
  refine ⟨?_, ?_⟩
  · rw [Balanced, Place.behind, List.foldl_append]
    exact congrArg (List.foldl Place.next · ['"']) hopened.2
  · rw [bare_append, hopened.1, hopened.2]
    exact nofun

/-- Whatever part of a text it is, all it has outside its strings is allowed there. -/
theorem Spells.clean {part : Part} {cs : List Char} (h : Spells part cs) : Clean cs := by
  have hbracket {left right : Char} {cs : List Char} (h : Clean cs) (hleft : left ∈ signs)
      (hright : right ∈ signs) : Clean (left :: cs ++ [right]) :=
    ((clean_signs (List.forall_mem_singleton.2 hleft)).append h).append
      (clean_signs (List.forall_mem_singleton.2 hright))
  have hcomma : Clean [','] := clean_signs (by simp [signs])
  have hcolon : Clean [':'] := clean_signs (by simp [signs])
  induction h with
  | null | yes | no => exact clean_signs (by simp [signs])
  | number number => exact number.clean
  | text quoted => exact quoted.clean
  | emptyArray blanks | emptyObject blanks =>
      exact hbracket blanks.clean (by simp [signs]) (by simp [signs])
  | array _ ih | object _ ih => exact hbracket ih (by simp [signs]) (by simp [signs])
  | element before _ behind ih => exact (before.clean.append ih).append behind.clean
  | lastElement _ ih => exact ih
  | moreElements _ _ ih ih' | moreMembers _ _ ih ih' => exact (ih.append hcomma).append ih'
  | lastMember before quoted behind _ ih =>
      exact (((before.clean.append quoted.clean).append behind.clean).append hcolon).append ih

/-- A text with anything else outside its strings is no JSON. -/
theorem not_isText {cs : List Char} {c : Char} (h : c ∈ bare .outside cs) (hc : ¬ Allowed c) :
    ¬ IsText cs :=
  fun ⟨_, hspells⟩ => hc (hspells.clean.allowed c h)

/-! ## Writing -/

theorem blanks_nil : Blanks [] :=
  nofun

theorem Spells.alone {d : Document} {cs : List Char} (h : Spells (.value d) cs) :
    Spells (.element d) cs := by
  simpa using Spells.element blanks_nil h blanks_nil

/-- A text as the pieces of a string. -/
def pieces (s : String) : List Piece :=
  s.toList.map .char

/-- Every character may stand in a string as it is. -/
def Unescaped (s : String) : Prop :=
  ∀ c ∈ s.toList, c ≠ '"' ∧ c ≠ '\\' ∧ 0x20 ≤ c.toNat

theorem quoted_pieces {s : String} (h : Unescaped s) : Quoted (pieces s) s.toList := by
  rw [Unescaped] at h
  rw [pieces]
  generalize s.toList = cs at h
  induction cs with
  | nil => exact .nil
  | cons c cs ih =>
      obtain ⟨⟨quote, escape, control⟩, hrest⟩ := List.forall_mem_cons.1 h
      exact .cons (.plain quote escape control) (ih hrest)

theorem spells_elements {literals : List (List Char)} (hne : literals ≠ [])
    (h : ∀ literal ∈ literals, Number literal) :
    Spells (.elements (literals.map .number)) ([','].intercalate literals) := by
  induction literals with
  | nil => exact absurd rfl hne
  | cons literal rest ih =>
      obtain ⟨hfirst, hrest⟩ := List.forall_mem_cons.1 h
      cases rest with
      | nil =>
          rw [List.intercalate_singleton]
          exact .lastElement (.alone (.number hfirst))
      | cons second rest =>
          rw [List.intercalate_cons_cons]
          exact .moreElements (.alone (.number hfirst)) (ih (List.cons_ne_nil _ _) hrest)

end ArmLink.Json
