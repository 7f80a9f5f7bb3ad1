import ArmLink.Proofs.MotionStream
import ArmLink.Proofs.SentNumbers

/-!
# One command a text

Whatever a call is given, the text it sends is to be one command: a name, one pair of
brackets of which the second ends the text, and between them the arguments with commas
in between, so that a reader who knows no more than that finds these arguments again.
`Frames` says so.

Names are letters and numbers have no mark in them, so there is something to show in two
places only. One is the axis of a jog, which is one of a few texts. The other is the name
of a script, the only text that a host can choose. The characters that would take a
command apart are refused there, and a name must not be empty. Blanks and control
characters are not refused, and what comes out is exact on both sides: a blank stands in
what is sent if and only if it stood in the name of a script.
-/

namespace ArmLink

open ArmLink.Dashboard (Request)
open ArmLink.Motion (Move)
open ArmLink.Robot (JogAxis)

/-- Whether a character is a control character, as the general category Cc has them. -/
def Text.isControl (c : Char) : Bool :=
  c.toNat < 0x20 || (0x7F ≤ c.toNat && c.toNat < 0xA0)

/-- Whether a character shows nothing: a blank or a control character. -/
def Text.isGap (c : Char) : Bool :=
  isBlank c || isControl c

open ArmLink.Text (isGap)

namespace Command

/-- The text is this command and nothing else, for one who knows the marks and not the command. -/
structure Frames (command : Command) (text : String) : Prop where
  shape : text.toList = command.name.toList ++
    '(' :: [','].intercalate (command.arguments.map Argument.chars) ++ [')']
  nonempty : command.name.toList ≠ []
  letters : command.name.toList.all Char.isAlpha = true
  opened : text.toList.count '(' = 1
  closed : text.toList.count ')' = 1
  last : text.toList.getLast? = some ')'
  unended : Reply.terminator ∉ text.toList
  read : readFront text.toList.dropLast =
    (command.name.toList, command.arguments.map Argument.chars)

/-- Whether a character neither ends a command on the wire nor shows nothing. -/
def isSolid (c : Char) : Bool :=
  c != Reply.terminator && !isGap c

theorem of_isSolid {c : Char} (h : isSolid c = true) : c ≠ Reply.terminator ∧ isGap c = false := by
  simpa [isSolid] using h

section

variable {command : Command}

theorem Delimited.count_chars (h : command.Delimited) {mark : Char}
    (hmark : mark = '(' ∨ mark = ')') : command.chars.count mark = 1 := by
  obtain ⟨hname, hinside⟩ := h.not_mem hmark
  rw [chars, List.count_append, List.count_append, List.count_cons,
    List.count_eq_zero_of_not_mem hname, List.count_eq_zero_of_not_mem hinside]
  rcases hmark with rfl | rfl <;> decide

theorem Delimited.frames (h : command.Delimited) (hnonempty : command.name.toList ≠ [])
    (hletters : command.name.toList.all Char.isAlpha = true)
    (hunended : Reply.terminator ∉ command.chars) : command.Frames command.text := by
  have htext : command.text.toList = command.chars := by rw [text, String.toList_ofList]
  refine ⟨htext, hnonempty, hletters, ?_, ?_, ?_, ?_, ?_⟩ <;> rw [htext]
  · exact h.count_chars (.inl rfl)
  · exact h.count_chars (.inr rfl)
  · rw [chars, List.getLast?_concat]
  · exact hunended
  · rw [chars, List.dropLast_concat]
    exact h.readFront_front

theorem IsNumeric.solid (h : command.IsNumeric) : ∀ c ∈ command.chars, isSolid c = true := by
  refine forall_mem_chars ⟨by decide, by decide, by decide⟩
    (fun c hc => of_isAlpha (by decide) (List.all_eq_true.1 h.letters c hc)) ?_
  intro argument hargument c hc
  have hnumerals : Decimal.numerals.all isSolid = true := by decide
  have hnumber : ∀ text, argument ≠ .text text := fun text ht => h.arguments text (ht ▸ hargument)
  exact List.all_eq_true.1 hnumerals c (chars_subset hnumber hc)

theorem IsNumeric.frames (h : command.IsNumeric) : command.Frames command.text :=
  h.delimited.frames h.nonempty h.letters fun hc => (of_isSolid (h.solid _ hc)).1 rfl

/-- A text alone between brackets behind a name. -/
theorem forall_mem_chars_text {p : Char → Prop} {name text : String} (hmarks : p '(' ∧ p ',' ∧ p ')')
    (hname : ∀ c ∈ name.toList, p c) (htext : ∀ c ∈ text.toList, p c) :
    ∀ c ∈ Command.chars ⟨name, [.text text]⟩, p c :=
  forall_mem_chars hmarks hname (List.forall_mem_singleton.2 htext)

end

end Command

/-! ## Requests -/

namespace Dashboard.Request

variable {name : String}

theorem script_delimited (hnonempty : name ≠ "") (h : name.toList.any isSeparator = false) :
    Command.Delimited ⟨"RunScript", [.text name]⟩ := by
  have hscript : "RunScript".toList.all Command.isPlain = true := by decide
  refine ⟨hscript, List.forall_mem_singleton.2 (List.all_eq_true.2 fun c hc => ?_),
    List.forall_mem_singleton.2 fun hnil => hnonempty (String.toList_eq_nil_iff.1 hnil)⟩
  have hc := not_isSeparator h hc
  simp only [isSeparator, Bool.or_eq_false_iff] at hc
  simp [Command.isPlain, bne, hc.1.1.1, hc.1.1.2, hc.1.2]

theorem script_solid (h : name.toList.any isSeparator = false) :
    ∀ c ∈ Command.chars ⟨"RunScript", [.text name]⟩,
      c ≠ Reply.terminator ∧ (isGap c = true → c ∈ name.toList) := by
  have hscript : "RunScript".toList.all Command.isSolid = true := by decide
  have hsolid {c : Char} (hc : Command.isSolid c = true) :
      c ≠ Reply.terminator ∧ (isGap c = true → c ∈ name.toList) := by
    obtain ⟨hend, hgap⟩ := Command.of_isSolid hc
    exact ⟨hend, fun hc => absurd (hc.symm.trans hgap) (by decide)⟩
  refine Command.forall_mem_chars_text
    ⟨hsolid (by decide), hsolid (by decide), hsolid (by decide)⟩
    (fun c hc => hsolid (List.all_eq_true.1 hscript c hc)) fun c hc => ⟨?_, fun _ => hc⟩
  rintro rfl
  exact absurd (not_isSeparator h hc) (by decide)

variable {request : Request} {command : Command}

theorem frames_command (h : request.command = .ok command) : command.Frames command.text := by
  rcases command_cases h with hnumeric | ⟨name, rfl, hnonempty, hseparators, rfl⟩
  · exact hnumeric.frames
  · have hname : "RunScript".toList ≠ [] ∧ "RunScript".toList.all Char.isAlpha = true := by decide
    exact (script_delimited hnonempty hseparators).frames hname.1 hname.2
      fun hc => (script_solid hseparators _ hc).1 rfl

/-- Blanks and control characters get into a command by the name of a script, and by nothing
else. -/
theorem gap_mem_iff (h : request.command = .ok command) {c : Char} (hc : isGap c = true) :
    c ∈ command.text.toList ↔ ∃ name, request = .runScript name ∧ c ∈ name.toList := by
  rw [Command.text, String.toList_ofList]
  constructor
  · intro hmem
    rcases command_cases h with hnumeric | ⟨name, rfl, -, hseparators, rfl⟩
    · have hsolid := (Command.of_isSolid (hnumeric.solid c hmem)).2
      exact absurd (hc.symm.trans hsolid) (by decide)
    · exact ⟨name, rfl, (script_solid hseparators c hmem).2 hc⟩
  · rintro ⟨name, rfl, hmem⟩
    obtain ⟨-, -, rfl⟩ := runScript_command h
    rw [Command.chars_text]
    exact List.mem_append_left _ (List.mem_append_right _ (List.mem_cons_of_mem _ hmem))

end Dashboard.Request

/-! ## Moves -/

namespace Motion.Move

theorem solid_command (move : Move) : ∀ c ∈ move.command.chars, Command.isSolid c = true := by
  rcases move.command_cases with hnumeric | ⟨axis, rfl⟩
  · exact hnumeric.solid
  · have hname : "MoveJog".toList.all Command.isSolid = true := by decide
    have haxes : ∀ axis ∈ JogAxis.all, axis.wireName.toList.all Command.isSolid = true := by decide
    exact Command.forall_mem_chars_text ⟨by decide, by decide, by decide⟩
      (List.all_eq_true.1 hname) (List.all_eq_true.1 (haxes axis axis.mem_all))

theorem frames_command (move : Move) : move.command.Frames move.command.text := by
  have hunended : Reply.terminator ∉ move.command.chars :=
    fun hc => (Command.of_isSolid (move.solid_command _ hc)).1 rfl
  rcases move.command_cases with hnumeric | ⟨axis, rfl⟩
  · exact hnumeric.frames
  · have hname : "MoveJog".toList ≠ [] ∧ "MoveJog".toList.all Char.isAlpha = true := by decide
    exact (delimited_command _).frames hname.1 hname.2 hunended

theorem refused_or_sent (move : Move) (b : Bench) :
    (Refused (move.send b).1 → (move.send b).2 = b) ∧
      (¬ Refused (move.send b).1 → (move.send b).2.motion.sent =
        b.motion.sent ++ if b.motion.takes then [move.command.text] else []) := by
  by_cases hcheck : move.command.check = .ok ()
  · rw [move.send_of_valid hcheck]
    obtain ⟨haccepted, hsent⟩ := b.sendMotion_outcome move.command.text
    exact ⟨fun h => absurd h haccepted, fun _ => hsent⟩
  · obtain ⟨fault, hsend⟩ := send_of_invalid hcheck b
    rw [hsend]
    exact ⟨fun _ => rfl, fun h => absurd ⟨fault, rfl⟩ h⟩

end Motion.Move

/-- A call that is refused for its arguments does nothing, and any other sends one command and
nothing else, if the link takes anything: the name, and between the only two brackets the
arguments, which a reader finds again at the commas. There is no terminator in it. A
blank or a control character is in it exactly when it is in the name of a script that is to be
run. -/
theorem Bench.sends_one_command (b : Bench) :
    (∀ limit (request : Request),
      let result := (request.perform limit b).1
      let after := (request.perform limit b).2
      (Refused result → after = b) ∧
      (¬ Refused result → ∃ command, request.command = .ok command ∧
        after.dashboard.sent =
          b.dashboard.sent ++ (if b.dashboard.takes then [command.text] else []) ∧
        command.Frames command.text ∧
        ∀ c, isGap c = true →
          (c ∈ command.text.toList ↔ ∃ name, request = .runScript name ∧ c ∈ name.toList))) ∧
    ∀ move : Move,
      let result := (move.send b).1
      let after := (move.send b).2
      (Refused result → after = b) ∧
      (¬ Refused result →
        after.motion.sent =
          b.motion.sent ++ (if b.motion.takes then [move.command.text] else []) ∧
        move.command.Frames move.command.text ∧
        ∀ c ∈ move.command.text.toList, isGap c = false) := by
  refine ⟨fun limit request => ⟨fun hrefused => ?_, fun haccepted => ?_⟩, fun move => ?_⟩
  · exact ((Dashboard.perform_outcome limit request b).of_refused hrefused).2
  · obtain ⟨command, hcommand, -, hsent⟩ := Request.sent_of_not_refused haccepted
    exact ⟨command, hcommand, hsent, Request.frames_command hcommand,
      fun c hc => Request.gap_mem_iff hcommand hc⟩
  · obtain ⟨hrefused, hsent⟩ := move.refused_or_sent b
    refine ⟨hrefused, fun haccepted => ⟨hsent haccepted, move.frames_command, ?_⟩⟩
    rw [Command.text, String.toList_ofList]
    exact fun c hc => (Command.of_isSolid (move.solid_command c hc)).2

/-- The name of a script with a blank that is not in ASCII, and a jog. -/
theorem Bench.sends_one_command_wide_blank :
    let link := { Link.fresh "down" true with up := true }
    let b : Bench := ⟨link, link, link, .silent⟩
    let jog := Move.moveJog (some ⟨.r, false⟩)
    let wide := Request.runScript "a\u3000b"
    ¬ Refused (wide.perform 500 b).1 ∧ ¬ Refused (jog.send b).1 ∧ isGap '\u3000' = true ∧
      (∃ command, wide.command = .ok command ∧
        (wide.perform 500 b).2.dashboard.sent = [command.text] ∧
        command.Frames command.text ∧ '\u3000' ∈ command.text.toList) ∧
      (jog.send b).2.motion.sent = [jog.command.text] ∧
      jog.command.Frames jog.command.text ∧ ∀ c ∈ jog.command.text.toList, isGap c = false := by
  intro link b jog wide
  obtain ⟨hrequest, hmove⟩ := b.sends_one_command
  have hwide : ¬ Refused (wide.perform 500 b).1 := by
    have hscript : wide.command = .ok ⟨"RunScript", [.text "a\u3000b"]⟩ := rfl
    rw [Request.refused_iff hscript]
    rintro ⟨x, hx, -⟩
    cases List.mem_singleton.1 hx
  have hjog : ¬ Refused (jog.send b).1 := by
    rw [jog.send_of_valid rfl]
    exact (b.sendMotion_outcome jog.command.text).1
  have hgap : isGap '\u3000' = true := by decide
  obtain ⟨command, hcommand, hsent, hframes, hmem⟩ := (hrequest 500 wide).2 hwide
  exact ⟨hwide, hjog, hgap, ⟨command, hcommand, hsent, hframes,
    (hmem _ hgap).2 ⟨_, rfl, by decide⟩⟩, (hmove jog).2 hjog⟩

/-- A script whose name has a blank in it is run by this name. -/
theorem Bench.script_name_sends_blank :
    let link := { Link.fresh "down" true with up := true }
    let b : Bench := ⟨link, link, link, .silent⟩
    ((Request.runScript "a b").perform 500 b).2.dashboard.sent = ["RunScript(a b)"] ∧
      ' ' ∈ "RunScript(a b)".toList ∧ isGap ' ' = true := by
  decide +kernel

end ArmLink
