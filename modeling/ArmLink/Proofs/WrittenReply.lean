import ArmLink.Dashboard.Request
import ArmLink.Proofs.ReplyGrammar

/-!
# Written replies read back

A reply is text around two things that the controller does not choose for the
sake of the reader: a payload that may hold braces and commas, and an echo of what
was asked. The reader splits them at the last brace that has a comma behind it.
That finds the right place because of the echo alone, so the theory here is about
echoes: no command that a request can come to holds both a brace and a comma.
Numbers and the names of commands have no brace, and the one text that a host can
choose freely, the name of a script, has no comma.
-/

namespace ArmLink

namespace Reply

open ArmLink.Text (isBlank trim)

/-! ## What can be echoed -/

/-- What can be echoed so that a reader finds where the echo begins, and nothing of it is
taken for something else. -/
structure Echoes (text : List Char) : Prop where
  ascii : ∀ c ∈ text, c.toNat < 128
  unended : terminator ∉ text
  unsplit : '\x7d' ∉ text ∨ ',' ∉ text
  ends : ∃ a middle, text = a :: middle ++ [')'] ∧ isBlank a = false

theorem Echoes.trim_eq {text : List Char} (h : Echoes text) : trim text = text := by
  obtain ⟨a, middle, rfl, ha⟩ := h.ends
  exact Text.strip_of_ends ha (by decide)

/-- Without a brace or without a comma there is no separator. -/
theorem Echoes.not_infix {text : List Char} (h : Echoes text) : ¬ separator <:+: text :=
  fun hfound => h.unsplit.elim (fun hbrace => hbrace (hfound.subset List.mem_cons_self))
    fun hcomma => hcomma (hfound.subset (List.mem_cons_of_mem _ List.mem_cons_self))

/-- A written reply reads back as what it was written from, but for the blanks around its payload,
whatever padding is in front. -/
theorem parse_written {status : Int} {payload echo : String} {padding : List Char}
    (hstatus : Decimal.int32.holds status) (hecho : Echoes echo.toList)
    (hpadding : ∀ c ∈ padding, isPadding c = true) :
    parse (String.ofList (padding ++ (written status payload echo).toList)) =
      .ok ⟨status, String.ofList (trim payload.toList), echo, written status payload echo⟩ := by
  have htrim : Text.trimmed echo = echo := by
    rw [Text.trimmed, hecho.trim_eq, String.ofList_toList]
  rw [parse_padded hstatus hecho.not_infix hpadding, htrim]
  rfl

end Reply

/-! ## Commands as echoes -/

/-- Whether a character can stand anywhere in an echo. -/
def isUnmarked (c : Char) : Bool :=
  decide (c.toNat < 128) && c != Reply.terminator && c != '\x7d'

theorem of_isUnmarked {c : Char} (h : isUnmarked c = true) :
    c.toNat < 128 ∧ c ≠ Reply.terminator := by
  simp only [isUnmarked, Bool.and_eq_true, decide_eq_true_eq, bne_iff_ne] at h
  exact h.1

theorem isUnmarked_numeral : ∀ c ∈ Decimal.numerals, isUnmarked c = true :=
  List.all_eq_true.1 (by decide)

/-- What holds of the letters one by one holds of a letter. -/
theorem of_isAlpha {p : Char → Bool}
    (h : ∀ n < 128, (Char.ofNat n).isAlpha = true → p (Char.ofNat n) = true) {c : Char}
    (hc : c.isAlpha = true) : p c = true := by
  have hlt : c.toNat < 128 := by
    have hupper : c.isUpper = true → c.val.toNat ≤ 90 := fun h => (of_decide_eq_true h).2
    have hlower : c.isLower = true → c.val.toNat ≤ 122 :=
      fun h => of_decide_eq_true (Bool.and_eq_true_iff.1 h).2
    show c.val.toNat < 128
    rcases Bool.or_eq_true_iff.1 hc with hc | hc
    · exact (hupper hc).trans_lt (by decide)
    · exact (hlower hc).trans_lt (by decide)
  have hall := h c.toNat hlt
  rw [Char.ofNat_toNat] at hall
  exact hall hc

/-- A written reply is ASCII and has its only terminator at its end. -/
theorem Reply.written_ends (status : Int) {payload echo : String}
    (hpayload : ∀ c ∈ payload.toList, c.toNat < 128 ∧ c ≠ terminator)
    (hecho : Echoes echo.toList) :
    ∃ head, (written status payload echo).toList = head ++ [terminator] ∧ terminator ∉ head ∧
      ∀ c ∈ (written status payload echo).toList, c.toNat < 128 := by
  have hplain : ∀ c ∈ Decimal.integerChars status ++ [',', '\x7b'] ++ payload.toList ++
      ['\x7d', ','] ++ echo.toList, c.toNat < 128 ∧ c ≠ terminator := by
    have hopen : ∀ c ∈ [',', '\x7b'], c.toNat < 128 ∧ c ≠ terminator :=
      List.forall_mem_cons.2 ⟨by decide, List.forall_mem_singleton.2 (by decide)⟩
    have hclose : ∀ c ∈ ['\x7d', ','], c.toNat < 128 ∧ c ≠ terminator :=
      List.forall_mem_cons.2 ⟨by decide, List.forall_mem_singleton.2 (by decide)⟩
    intro c hc
    simp only [List.append_assoc, List.mem_append] at hc
    rcases hc with hc | hc | hc | hc | hc
    · exact of_isUnmarked (isUnmarked_numeral c (Decimal.integerChars_subset _ hc))
    · exact hopen c hc
    · exact hpayload c hc
    · exact hclose c hc
    · exact ⟨hecho.ascii c hc, fun heq => hecho.unended (heq ▸ hc)⟩
  refine ⟨_, by rw [written, String.toList_ofList], fun hc => (hplain _ hc).2 rfl, ?_⟩
  intro c hc
  rw [written, String.toList_ofList] at hc
  rcases List.mem_append.1 hc with hc | hc
  · exact (hplain c hc).1
  · rw [List.mem_singleton.1 hc]
    decide

namespace Command

open ArmLink.Text (isBlank)

/-- A command whose name can be echoed as it is, and none of whose arguments is a text. -/
structure IsUnmarked (command : Command) : Prop where
  name : command.name.toList.all isUnmarked = true
  begins : (command.name.toList.head?.any fun c => !isBlank c) = true
  arguments : ∀ text, .text text ∉ command.arguments

theorem chars_subset {argument : Argument} (h : ∀ text, argument ≠ .text text) :
    argument.chars ⊆ Decimal.numerals := by
  cases argument with
  | integer value => exact Decimal.integerChars_subset value
  | real value => exact Decimal.fixedChars_subset 3 value
  | text value => exact absurd rfl (h value)

theorem IsUnmarked.chars {command : Command} (h : command.IsUnmarked) :
    ∀ c ∈ command.chars, isUnmarked c = true := by
  refine forall_mem_chars ⟨by decide, by decide, by decide⟩ (List.all_eq_true.1 h.name) ?_
  intro argument hargument c hc
  have hnumber : ∀ text, argument ≠ .text text := fun text ht => h.arguments text (ht ▸ hargument)
  exact isUnmarked_numeral c (chars_subset hnumber hc)

theorem IsUnmarked.echoes {command : Command} (h : command.IsUnmarked) :
    Reply.Echoes command.chars := by
  have hchars := h.chars
  refine ⟨fun c hc => ?_, fun hc => ?_, .inl fun hc => ?_, ?_⟩
  · exact (of_isUnmarked (hchars c hc)).1
  · exact absurd (hchars _ hc) (by decide)
  · exact absurd (hchars _ hc) (by decide)
  · obtain ⟨a, hhead, ha⟩ := (Option.any_eq_true _ _).1 h.begins
    obtain ⟨rest, hname⟩ := List.head?_eq_some_iff.1 hhead
    refine ⟨a, rest ++ '(' :: [','].intercalate (command.arguments.map Argument.chars), ?_, ?_⟩
    · rw [Command.chars, hname]
      rfl
    · simpa using ha

/-- A text alone stands in the brackets as it is. -/
theorem chars_text (name text : String) :
    Command.chars ⟨name, [.text text]⟩ = name.toList ++ '(' :: text.toList ++ [')'] := by
  simp [Command.chars, Argument.chars, List.intercalate]

/-- A command whose name is letters and whose arguments are numbers. -/
structure IsNumeric (command : Command) : Prop where
  nonempty : command.name.toList ≠ []
  letters : command.name.toList.all Char.isAlpha = true
  arguments : ∀ text, .text text ∉ command.arguments

theorem isNumeric_mk {name : String} {arguments : List Argument} (hnonempty : name.toList ≠ [])
    (hletters : name.toList.all Char.isAlpha = true)
    (harguments : ∀ text, .text text ∉ arguments) : IsNumeric ⟨name, arguments⟩ :=
  ⟨hnonempty, hletters, harguments⟩

theorem IsNumeric.isUnmarked {command : Command} (h : command.IsNumeric) : command.IsUnmarked where
  name := List.all_eq_true.2 fun _ hc => of_isAlpha (by decide) (List.all_eq_true.1 h.letters _ hc)
  begins := by
    obtain ⟨a, rest, hname⟩ := List.exists_cons_of_ne_nil h.nonempty
    have ha : a.isAlpha = true := List.all_eq_true.1 h.letters a (by simp [hname])
    have hsolid : (!isBlank a) = true := @of_isAlpha (!isBlank ·) (by decide) a ha
    rw [hname]
    exact hsolid
  arguments := h.arguments

end Command

namespace Dashboard.Request

/-- The text that a host may choose in a request is ASCII. -/
def IsAscii : Request → Prop
  | .runScript name => ∀ c ∈ name.toList, c.toNat < 128
  | _ => True

theorem not_isSeparator {name : String} (h : name.toList.any isSeparator = false) {c : Char}
    (hc : c ∈ name.toList) : isSeparator c = false :=
  Bool.eq_false_iff.2 fun hs => Bool.eq_false_iff.1 h (List.any_eq_true.2 ⟨c, hc, hs⟩)

theorem echoes_script {name : String} (hascii : ∀ c ∈ name.toList, c.toNat < 128)
    (haccepted : name.toList.any isSeparator = false) :
    Reply.Echoes (Command.chars ⟨"RunScript", [.text name]⟩) := by
  have hchars : Command.chars ⟨"RunScript", [.text name]⟩ =
      "RunScript(".toList ++ name.toList ++ [')'] := Command.chars_text _ _
  have hmem {c : Char} (hc : c ∈ "RunScript(".toList ++ name.toList ++ [')']) :
      c ∈ name.toList ∨ c ∈ "RunScript()".toList := by
    rcases List.mem_append.1 hc with hc | hc
    · rcases List.mem_append.1 hc with hc | hc
      · right
        rw [show "RunScript()".toList = "RunScript(".toList ++ [')'] from rfl]
        exact List.mem_append_left _ hc
      · exact .inl hc
    · rw [List.mem_singleton.1 hc]
      exact .inr (by decide)
  rw [hchars]
  refine ⟨fun c hc => ?_, fun hc => ?_, .inr fun hc => ?_, ?_⟩
  · rcases hmem hc with hc | hc
    · exact hascii c hc
    · have hall : ("RunScript()".toList.all fun c => decide (c.toNat < 128)) = true := by decide
      exact of_decide_eq_true (List.all_eq_true.1 hall c hc)
  · rcases hmem hc with hc | hc
    · exact absurd (not_isSeparator haccepted hc) (by decide)
    · exact absurd hc (by decide)
  · rcases hmem hc with hc | hc
    · exact absurd (not_isSeparator haccepted hc) (by decide)
    · exact absurd hc (by decide)
  · exact ⟨'R', "unScript(".toList ++ name.toList, rfl, by decide⟩

theorem numeric_ratio {name : String} {least value : Nat} {command : Command}
    (h : ratio name least value = .ok command) (hnonempty : name.toList ≠ [])
    (hletters : name.toList.all Char.isAlpha = true) : command.IsNumeric := by
  rw [ratio] at h
  split at h
  · obtain rfl := Except.ok.inj h
    exact Command.isNumeric_mk hnonempty hletters (by simp)
  · cases h

theorem runScript_command {name : String} {command : Command}
    (h : (Request.runScript name).command = .ok command) :
    name ≠ "" ∧ name.toList.any isSeparator = false ∧ command = ⟨"RunScript", [.text name]⟩ := by
  rw [Request.command] at h
  split at h
  · cases h
  · next hname =>
      rw [not_or, Bool.not_eq_true] at hname
      exact ⟨hname.1, hname.2, (Except.ok.inj h).symm⟩

/-- A request comes to a command with numbers, or else it runs a script, and then the name of the
script is the one argument. -/
theorem command_cases {request : Request} {command : Command} (h : request.command = .ok command) :
    command.IsNumeric ∨ ∃ name, request = .runScript name ∧ name ≠ "" ∧
      name.toList.any isSeparator = false ∧ command = ⟨"RunScript", [.text name]⟩ := by
  cases request with
  | runScript name => exact .inr ⟨name, rfl, runScript_command h⟩
  | speedFactor value | accJ value | accL value | speedJ value | speedL value | blend value =>
      exact .inl (numeric_ratio h (by decide) (by decide))
  | limitHeight z =>
      rw [Request.command] at h
      split at h
      · obtain rfl := Except.ok.inj h
        exact .inl (Command.isNumeric_mk (by decide) (by decide) (by simp))
      · cases h
  | _ =>
      obtain rfl := Except.ok.inj h
      exact .inl (Command.isNumeric_mk (by decide) (by decide) (by simp [switch]))

/-- Whatever a request comes to can be echoed. -/
theorem echoes_command {request : Request} {command : Command}
    (h : request.command = .ok command) (hascii : request.IsAscii) :
    Reply.Echoes command.chars := by
  rcases command_cases h with hnumeric | ⟨name, rfl, -, hseparators, rfl⟩
  · exact hnumeric.isUnmarked.echoes
  · exact echoes_script hascii hseparators

end Dashboard.Request

end ArmLink
