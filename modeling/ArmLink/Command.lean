import ArmLink.Failure
import ArmLink.Robot.JogAxis

/-!
# Commands

A command is a name and its arguments, written `Name(a,b,c)` with nothing between
the parts but commas. Integers are written as they are, other numbers with three
decimals. A number that is not finite has no place on the wire, and a command
that holds one is refused before it gets there.
-/

namespace ArmLink

/-- The axis a text names. -/
def Robot.JogAxis.parse (text : String) : Except Failure Robot.JogAxis :=
  match Robot.JogAxis.ofText? text with
  | some axis => .ok axis
  | none => .error (.argument (.axis text))

inductive Argument where
  | integer (value : Int)
  | real (value : Float)
  | text (value : String)
  deriving DecidableEq, Repr

namespace Argument

def chars : Argument → List Char
  | .integer value => Decimal.integerChars value
  | .real value => Decimal.fixedChars 3 value
  | .text value => value.toList

/-- The number in an argument, when it is not finite. -/
def unsendable? : Argument → Option Float
  | .real value => if value.isFinite then none else some value
  | _ => none

end Argument

structure Command where
  name : String
  arguments : List Argument
  deriving DecidableEq, Repr

namespace Command

def bare (name : String) : Command := ⟨name, []⟩

def chars (command : Command) : List Char :=
  command.name.toList ++ '(' :: [','].intercalate (command.arguments.map Argument.chars) ++ [')']

def text (command : Command) : String :=
  String.ofList command.chars

/-- What stands between the brackets is commas and what stands in the arguments. -/
theorem mem_intercalate {c : Char} {texts : List (List Char)} (h : c ∈ [','].intercalate texts) :
    c = ',' ∨ ∃ text ∈ texts, c ∈ text := by
  induction texts with
  | nil => cases h
  | cons text rest ih =>
      cases rest with
      | nil =>
          right
          exact ⟨text, List.mem_cons_self, by simpa using h⟩
      | cons next rest =>
          rw [List.intercalate_cons_cons, List.append_assoc] at h
          rcases List.mem_append.1 h with h | h
          · exact .inr ⟨text, List.mem_cons_self, h⟩
          · rcases List.mem_append.1 h with h | h
            · exact .inl (List.mem_singleton.1 h)
            · rcases ih h with hc | ⟨other, hother, hc⟩
              · exact .inl hc
              · exact .inr ⟨other, List.mem_cons_of_mem _ hother, hc⟩

/-- What holds of the three marks, and of what stands in the name and in the arguments, holds of
all that is written. -/
theorem forall_mem_chars {p : Char → Prop} {command : Command} (hmarks : p '(' ∧ p ',' ∧ p ')')
    (hname : ∀ c ∈ command.name.toList, p c)
    (harguments : ∀ argument ∈ command.arguments, ∀ c ∈ argument.chars, p c) :
    ∀ c ∈ command.chars, p c := by
  intro c hc
  rw [chars] at hc
  rcases List.mem_append.1 hc with hc | hc
  · rcases List.mem_append.1 hc with hc | hc
    · exact hname c hc
    · rcases List.mem_cons.1 hc with rfl | hc
      · exact hmarks.1
      · rcases mem_intercalate hc with rfl | ⟨text, htext, hc⟩
        · exact hmarks.2.1
        · obtain ⟨argument, hargument, rfl⟩ := List.mem_map.1 htext
          exact harguments argument hargument c hc
  · rw [List.mem_singleton.1 hc]
    exact hmarks.2.2

/-- Refuses a command with a number that is not finite, and names the first one. -/
def check (command : Command) : Except Failure Unit :=
  match command.arguments.findSome? Argument.unsendable? with
  | some value => .error (.argument (.notFinite command.name value))
  | none => .ok ()

/-- A command passes exactly when every number in it is finite. -/
theorem check_eq_ok_iff {command : Command} :
    command.check = .ok () ↔ ∀ value, .real value ∈ command.arguments → value.isFinite = true := by
  unfold check
  split
  · rename_i value h
    simp only [reduceCtorEq, false_iff]
    intro all
    obtain ⟨a, ha, hv⟩ := List.exists_of_findSome?_eq_some h
    cases a with
    | integer | text => simp [Argument.unsendable?] at hv
    | real x => simp [Argument.unsendable?, all x ha] at hv
  · rename_i h
    simp only [true_iff]
    intro value hv
    have := List.findSome?_eq_none_iff.1 h _ hv
    simpa [Argument.unsendable?] using this

end Command

end ArmLink
