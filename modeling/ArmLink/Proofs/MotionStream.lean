import Mathlib.Data.List.Forall2
import ArmLink.Proofs.Following
import ArmLink.Proofs.WrittenReply

/-!
# The stream on the motion port

Motion commands stand in their stream one right behind the other, and no reply says
where one of them ends. Still the stream can be taken apart, because the three marks
of a command stand nowhere else in it: not in its name, not in a number and not in an
axis. One thing more is needed. A command without arguments and a command whose only
argument is empty would be written alike, so an argument must not be empty either.
`Delimited` is both.

What is proved is not that two streams differ, but that one is read back. A reader
meets the end of a command before it meets anything of the next, so
`readStream_chars_append` reads a command off the front of any stream, whatever comes
behind. Two sequences of unequal shape are then never compared at all: each of them
is what its own stream reads as.
-/

namespace ArmLink

namespace Command

/-- Whether a character is none of the marks that a command is taken apart at. -/
def isPlain (c : Char) : Bool :=
  c != '(' && c != ')' && c != ','

/-- The name and the arguments, as they are written. -/
def written (command : Command) : List Char × List (List Char) :=
  (command.name.toList, command.arguments.map Argument.chars)

/-- What is written in front of the closing bracket. -/
def front (command : Command) : List Char :=
  command.name.toList ++ '(' :: [','].intercalate (command.arguments.map Argument.chars)

def readArguments (cs : List Char) : List (List Char) :=
  if cs = [] then [] else cs.splitOn ','

def readFront (cs : List Char) : List Char × List (List Char) :=
  (cs.takeWhile (· != '('), readArguments (cs.dropWhile (· != '(')).tail)

/-- The commands in a stream. What stands behind the last closing bracket is none yet. -/
def readStream (cs : List Char) : List (List Char × List (List Char)) :=
  (cs.splitOn ')').dropLast.map readFront

/-- A command that has its marks only where they take it apart. -/
structure Delimited (command : Command) : Prop where
  name : command.name.toList.all isPlain = true
  arguments : ∀ argument ∈ command.arguments, argument.chars.all isPlain = true
  nonempty : ∀ argument ∈ command.arguments, argument.chars ≠ []

/-! ## Reading back -/

theorem readArguments_intercalate {texts : List (List Char)} (hcomma : ∀ text ∈ texts, ',' ∉ text)
    (hnonempty : ∀ text ∈ texts, text ≠ []) :
    readArguments ([','].intercalate texts) = texts := by
  cases texts with
  | nil => rfl
  | cons text rest =>
      have hsome : [','].intercalate (text :: rest) ≠ [] := by
        cases rest with
        | nil =>
            rw [List.intercalate_singleton]
            exact hnonempty text List.mem_cons_self
        | cons next rest =>
            rw [List.intercalate_cons_cons]
            exact List.append_ne_nil_of_left_ne_nil
              (List.append_ne_nil_of_right_ne_nil _ (List.cons_ne_nil _ _)) _
      rw [readArguments, if_neg hsome]
      exact List.splitOn_intercalate ',' hcomma (List.cons_ne_nil _ _)

section

variable {command : Command}

theorem Delimited.readFront_front (h : command.Delimited) :
    readFront command.front = command.written := by
  have hname : ∀ c ∈ command.name.toList, (c != '(') = true := by
    intro c hc
    rw [bne_iff_ne]
    rintro rfl
    exact absurd (List.all_eq_true.1 h.name _ hc) (by decide)
  have harguments : readArguments ([','].intercalate (command.arguments.map Argument.chars)) =
      command.arguments.map Argument.chars := by
    refine readArguments_intercalate (List.forall_mem_map.2 fun argument hargument hc => ?_)
      (List.forall_mem_map.2 h.nonempty)
    exact absurd (List.all_eq_true.1 (h.arguments argument hargument) _ hc) (by decide)
  rw [readFront, front, List.takeWhile_append_of_pos hname, List.dropWhile_append_of_pos hname,
    List.takeWhile_cons_of_neg (by decide), List.dropWhile_cons_of_neg (by decide), List.append_nil,
    List.tail_cons, harguments]
  rfl

/-- A bracket stands neither in the name nor among the arguments. -/
theorem Delimited.not_mem (h : command.Delimited) {mark : Char} (hmark : mark = '(' ∨ mark = ')') :
    mark ∉ command.name.toList ∧
      mark ∉ [','].intercalate (command.arguments.map Argument.chars) := by
  have hplain : isPlain mark = false ∧ mark ≠ ',' := by
    rcases hmark with rfl | rfl <;> decide
  have hnone {cs : List Char} (hcs : cs.all isPlain = true) : mark ∉ cs := fun hc =>
    Bool.eq_false_iff.1 hplain.1 (List.all_eq_true.1 hcs mark hc)
  refine ⟨hnone h.name, fun hc => ?_⟩
  rcases mem_intercalate hc with hc | ⟨text, htext, hc⟩
  · exact hplain.2 hc
  · obtain ⟨argument, hargument, rfl⟩ := List.mem_map.1 htext
    exact hnone (h.arguments argument hargument) hc

theorem Delimited.not_mem_front (h : command.Delimited) : ')' ∉ command.front := by
  obtain ⟨hname, hinside⟩ := h.not_mem (.inr rfl)
  intro hc
  rcases List.mem_append.1 hc with hc | hc
  · exact hname hc
  · rcases List.mem_cons.1 hc with hc | hc
    · exact absurd hc (by decide)
    · exact hinside hc

/-- A command is read as soon as it is there, whatever comes behind it. -/
theorem Delimited.readStream_chars_append (h : command.Delimited) (rest : List Char) :
    readStream (command.chars ++ rest) = command.written :: readStream rest := by
  have hfront : ∀ c ∈ command.front, (c == ')') = false := by
    intro c hc
    rw [beq_eq_false_iff_ne]
    rintro rfl
    exact h.not_mem_front hc
  have hsplit : (command.chars ++ rest).splitOn ')' = command.front :: rest.splitOn ')' := by
    rw [show command.chars = command.front ++ [')'] from rfl, List.append_assoc]
    show List.splitOnP _ (command.front ++ ')' :: rest) = _
    rw [List.splitOnP_append_cons _ _ (by decide), List.splitOnP_eq_singleton hfront]
    rfl
  rw [readStream, hsplit, List.dropLast_cons_of_ne_nil (List.splitOn_ne_nil _ _), List.map_cons,
    h.readFront_front]
  rfl

theorem readStream_flatMap_append {commands : List Command}
    (h : ∀ command ∈ commands, command.Delimited) (rest : List Char) :
    readStream (commands.flatMap chars ++ rest) = commands.map written ++ readStream rest := by
  induction commands with
  | nil => rfl
  | cons command others ih =>
      obtain ⟨hcommand, hothers⟩ := List.forall_mem_cons.1 h
      rw [List.flatMap_cons, List.append_assoc, hcommand.readStream_chars_append, ih hothers]
      rfl

/-- Letters and numbers have no mark in them, and a number is never empty. -/
theorem IsNumeric.delimited (h : command.IsNumeric) : command.Delimited := by
  have hnumber {argument : Argument} (hargument : argument ∈ command.arguments) :
      ∀ text, argument ≠ .text text := fun text ht => h.arguments text (ht ▸ hargument)
  have hplain : Decimal.numerals.all isPlain = true := by decide
  refine ⟨?_, fun argument hargument => ?_, fun argument hargument => ?_⟩
  · exact List.all_eq_true.2 fun c hc => of_isAlpha (by decide) (List.all_eq_true.1 h.letters c hc)
  · exact List.all_eq_true.2 fun c hc =>
      List.all_eq_true.1 hplain c (chars_subset (hnumber hargument) hc)
  · cases argument with
    | integer value => exact (Decimal.numeral_integerChars value).ne_nil
    | real value => exact Decimal.fixedChars_ne_nil 3 value
    | text text => exact absurd rfl (hnumber hargument text)

end

end Command

namespace Motion

open ArmLink.Robot (JogAxis Pose)

namespace Move

/-- A move comes to a command with numbers, or else it jogs along an axis. -/
theorem command_cases (move : Move) : move.command.IsNumeric ∨
    ∃ axis : JogAxis, move = .moveJog (some axis) := by
  cases move with
  | moveJog axis =>
      cases axis with
      | none => exact .inl (Command.isNumeric_mk (by decide) (by decide) (by simp))
      | some axis => exact .inr ⟨axis, rfl⟩
  | jointMovJ joints | servoJ joints =>
      exact .inl (Command.isNumeric_mk (by decide) (by decide) (by simp [jointAngles]))
  | _ => exact .inl (Command.isNumeric_mk (by decide) (by decide) (by simp [cartesian]))

theorem delimited_command (move : Move) : move.command.Delimited := by
  rcases move.command_cases with hnumeric | ⟨axis, rfl⟩
  · exact hnumeric.delimited
  · have haxes : ∀ axis ∈ JogAxis.all, axis.wireName.toList ≠ [] ∧
        axis.wireName.toList.all Command.isPlain = true := by decide
    have hname : "MoveJog".toList.all Command.isPlain = true := by decide
    obtain ⟨hnonempty, hplain⟩ := haxes axis axis.mem_all
    exact ⟨hname, List.forall_mem_singleton.2 hplain, List.forall_mem_singleton.2 hnonempty⟩

/-- The move is accepted somewhere, and this is what is sent on the motion port then. -/
def Sends (move : Move) (text : String) : Prop :=
  ∃ b after, move.send b = (.ok (), after) ∧ after.motion.sent = b.motion.sent ++ [text]

theorem sends_iff {move : Move} {text : String} :
    move.Sends text ↔ move.command.check = .ok () ∧ text = move.command.text := by
  constructor
  · rintro ⟨b, after, hsend, hsent⟩
    rw [send] at hsend
    split at hsend
    · cases hsend
    · next hcheck =>
        have hcommand : after.motion.sent = b.motion.sent ++ [move.command.text] :=
          Bench.sent_sendMotion hsend .motion
        exact ⟨hcheck, List.singleton_inj.1 (List.append_cancel_left (hsent.symm.trans hcommand))⟩
  · rintro ⟨hcheck, rfl⟩
    let up := { Link.fresh "down" true with up := true }
    let b : Bench := ⟨up, up, up, .silent⟩
    have hok := Bench.sendMotion_of_clear (b := b) rfl rfl move.command.text
    have hsends : b.sendMotion move.command.text = (.ok (), (b.sendMotion move.command.text).2) :=
      Prod.ext hok rfl
    refine ⟨b, _, ?_, Bench.sent_sendMotion hsends .motion⟩
    rw [send, hcheck]
    exact hsends

end Move

/-- What accepted moves send is what their commands are written as. -/
theorem toList_join_of_sends {moves : List Move} {texts : List String}
    (h : List.Forall₂ Move.Sends moves texts) :
    (String.join texts).toList = (moves.map Move.command).flatMap Command.chars := by
  rw [String.toList_join]
  induction h with
  | nil => rfl
  | cons hsends _ ih =>
      rw [List.flatMap_cons, ih, (Move.sends_iff.1 hsends).2, Command.text, String.toList_ofList]
      rfl

theorem readStream_of_sends {moves : List Move} {texts : List String}
    (h : List.Forall₂ Move.Sends moves texts) (rest : List Char) :
    Command.readStream ((String.join texts).toList ++ rest) =
      moves.map (·.command.written) ++ Command.readStream rest := by
  have hdelimited : ∀ command ∈ moves.map Move.command, command.Delimited :=
    List.forall_mem_map.2 fun move _ => move.delimited_command
  rw [toList_join_of_sends h, Command.readStream_flatMap_append hdelimited, List.map_map]
  rfl

/-- If two sequences of accepted moves send the same stream, they are the same number of commands
with the same names and the same written arguments. More than that, if the stream of one begins as
the whole stream of the other does, then so do its commands. -/
theorem stream_determines_moves {moves others : List Move} {texts more : List String}
    (hmoves : List.Forall₂ Move.Sends moves texts)
    (hothers : List.Forall₂ Move.Sends others more) :
    (String.join texts = String.join more →
      moves.map (·.command.written) = others.map (·.command.written)) ∧
    ((String.join texts).toList <+: (String.join more).toList →
      moves.map (·.command.written) <+: others.map (·.command.written)) := by
  have hend : Command.readStream [] = [] := rfl
  have hread := readStream_of_sends hmoves
  have hreadMore := readStream_of_sends hothers []
  rw [hend, List.append_nil, List.append_nil] at hreadMore
  constructor
  · intro heq
    have hwhole := hread []
    rw [hend, List.append_nil, List.append_nil, heq, hreadMore] at hwhole
    exact hwhole.symm
  · rintro ⟨rest, heq⟩
    refine ⟨Command.readStream rest, ?_⟩
    rw [← hread rest, heq, hreadMore]

/-- The targets differ by less than what is written. -/
theorem stream_determines_moves_close :
    let move x := Move.movJ (Pose.planar x 0.0 0.0 0.0)
    let jog := Move.moveJog (some ⟨.j1, true⟩)
    let stop := Move.moveJog none
    let moves := [move 0.2, jog, stop]
    let others := [move 0.2000001, jog, stop]
    let texts := ["MovJ(200.000,0.000,0.000,0.000)", "MoveJog(J1+)", "MoveJog()"]
    List.Forall₂ Move.Sends moves texts ∧ List.Forall₂ Move.Sends others texts ∧
      moves ≠ others ∧ moves.map (·.command.written) = others.map (·.command.written) := by
  intro move jog stop moves others texts
  have hsends (m : Move) (text : String)
      (hfinite : m.command.arguments.findSome? Argument.unsendable? = none)
      (htext : text = m.command.text) : m.Sends text :=
    Move.sends_iff.2 ⟨by rw [Command.check, hfinite], htext⟩
  have hstops : List.Forall₂ Move.Sends [jog, stop] ["MoveJog(J1+)", "MoveJog()"] :=
    .cons (hsends _ _ (by decide +kernel) (by decide +kernel))
      (.cons (hsends _ _ (by decide +kernel) (by decide +kernel)) .nil)
  have hmoves : List.Forall₂ Move.Sends moves texts :=
    .cons (hsends _ _ (by decide +kernel) (by decide +kernel)) hstops
  have hothers : List.Forall₂ Move.Sends others texts :=
    .cons (hsends _ _ (by decide +kernel) (by decide +kernel)) hstops
  exact ⟨hmoves, hothers, by decide +kernel, (stream_determines_moves hmoves hothers).1 rfl⟩

end Motion

end ArmLink
