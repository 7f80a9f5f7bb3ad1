import ArmLink.Arm
import ArmLink.Proofs.CutReply
import ArmLink.Proofs.WrittenLists
import ArmLink.Record.Messages

/-!
# The report of the controller's faults

The controller answers one question with the faults of all joints, and the report
says each of them with its joint and its text. Between the two lie the bytes on the
link, the reply they make, the lists in its payload, the slots those are put into,
and the table of texts. Each of the five has its lemma here, or in the files this
one builds on, and each is an equation: the next stage sees all that the one before
it had, in the same order. So no fault can be lost, said twice or laid on another
joint, whatever the numbers are.

One stage does not keep what it was given. An outer pair of brackets with nothing in
it reads as one list without faults, where no list was meant. The slots do not tell
the two apart: a slot that is not sent is a slot without faults.
-/

namespace ArmLink

open ArmLink.Text (Blank Utf8.decodeApart Utf8.encode)

/-! ## From bytes to a line -/

namespace Dashboard

open ArmLink.Reply (terminator)

/-- A line has come: its bytes are there in pieces of any size, with padding in front of it and
any ASCII behind it. -/
def HasCome (line : String) (inbox : List Arrival) : Prop :=
  ∃ (pieces : List (List UInt8)) (padding more : List UInt8) (rest : List Arrival),
    inbox = pieces.map .bytes ++ rest ∧ pieces.flatten = padding ++ Utf8.encode line ++ more ∧
    (∀ b ∈ padding, b.toNat < 128 ∧ Reply.isPadding (Char.ofNat b.toNat) = true) ∧
    ∀ b ∈ more, b.toNat < 128

/-- Where ASCII is cut into pieces cannot be heard: every piece is a text of its own. -/
theorem heard_pieces {pieces : List (List UInt8)} (h : ∀ b ∈ pieces.flatten, b.toNat < 128)
    (rest : List Arrival) :
    heard (pieces.map .bytes ++ rest) = asciiChars pieces.flatten ++ heard rest := by
  have hflatten := flatten_flatMap_piecesOf pieces
  have hwhole : Utf8.decodeApart (pieces.flatMap piecesOf) =
      String.ofList (asciiChars pieces.flatten) := by
    refine (Text.Utf8.decodeApart_eq_iff (hflatten.trans (encode_asciiChars h).symm)).2 ?_
    intro piece hpiece
    refine ⟨_, (encode_asciiChars fun b hb => h b ?_).symm⟩
    rw [← hflatten]
    exact List.mem_flatten_of_mem hpiece hb
  rw [heard_chunks, hwhole, String.toList_ofList]

/-- A line that has come is in front of the link, with no more than padding before it. -/
theorem HasCome.lineInFront? {line : String} {inbox : List Arrival} (h : HasCome line inbox)
    {head : List Char} (hline : line.toList = head ++ [terminator]) (hhead : terminator ∉ head)
    (hascii : ∀ c ∈ line.toList, c.toNat < 128) :
    ∃ padding : List Char, (∀ c ∈ padding, Reply.isPadding c = true) ∧
      Dashboard.lineInFront? inbox = some (String.ofList (padding ++ line.toList)) := by
  obtain ⟨pieces, padding, more, rest, rfl, hpieces, hpadding, hmore⟩ := h
  obtain ⟨hbytes, hchars⟩ := encode_ascii hascii
  have hflatten : ∀ b ∈ pieces.flatten, b.toNat < 128 := by
    intro b hb
    rw [hpieces] at hb
    rcases List.mem_append.1 hb with hb | hb
    · rcases List.mem_append.1 hb with hb | hb
      · exact (hpadding b hb).1
      · exact hbytes b hb
    · exact hmore b hb
  obtain ⟨hplain, hunended⟩ := asciiChars_padding hpadding
  have hfront : terminator ∉ asciiChars padding ++ head :=
    fun hc => (List.mem_append.1 hc).elim hunended hhead
  -- All that is heard, as one text cut behind the line.
  have hheard : heard (pieces.map .bytes ++ rest) =
      (asciiChars padding ++ head) ++ terminator :: (asciiChars more ++ heard rest) := by
    rw [heard_pieces hflatten, hpieces, asciiChars_append, asciiChars_append]
    show _ ++ asciiChars (line.toList.flatMap _) ++ _ ++ _ = _
    rw [hchars, hline]
    simp
  refine ⟨asciiChars padding, hplain, ?_⟩
  rw [Dashboard.lineInFront?, hheard, hline, ← List.append_assoc,
    (throughTerminator?_eq (List.mem_append_right _ List.mem_cons_self) hfront
      (List.append_nil _)).1]
  rfl

end Dashboard

/-! ## From a line to lists -/

/-- A payload that gives some lists, in any way of writing them, with blanks around. -/
structure Payload.Gives (lists : List (List Int)) (payload : String) : Prop where
  spells : ∃ front core back : List Char, payload.toList = front ++ core ++ back ∧
    Blank front ∧ Blank back ∧ Payload.Spells lists core
  ascii : ∀ c ∈ payload.toList, c.toNat < 128
  bounds : ∀ ids ∈ lists, ∀ id ∈ ids, Decimal.int64.holds id

theorem Payload.Gives.unended {lists : List (List Int)} {payload : String}
    (h : Payload.Gives lists payload) : Reply.terminator ∉ payload.toList := by
  obtain ⟨front, core, back, heq, hfront, hback, hspells⟩ := h.spells
  have hblank : Text.isBlank Reply.terminator = false := by decide
  rw [heq, List.mem_append, List.mem_append, not_or, not_or]
  exact ⟨⟨hfront.not_mem hblank, hspells.unended⟩, hback.not_mem hblank⟩

theorem Payload.Gives.readLists {lists : List (List Int)} {payload : String}
    (h : Payload.Gives lists payload) :
    Payload.readLists (Text.trim payload.toList) = .ok lists ∨
      lists = [] ∧ Payload.readLists (Text.trim payload.toList) = .ok [[]] := by
  obtain ⟨front, core, back, heq, hfront, hback, hspells⟩ := h.spells
  have htrim : Text.trim payload.toList = core := by
    rw [heq, Text.trim, Text.strip_append hfront hback]
    exact hspells.trim_eq
  rw [htrim]
  exact Payload.readLists_of_spells hspells h.bounds

/-! ## From lists to a report -/

namespace Fault

open ArmLink.Robot (jointSlots)

/-- The faults of lists, one entry for each, with the joints counted from one. -/
def Report.ofLists (describe : Int → Option String) (lists : List (List Int)) : Report :=
  lists.zipIdx.flatMap fun (ids, i) => ids.map fun id => ⟨i + 1, id, describe id⟩

/-- The slots are the lists that were sent, and behind them slots without faults. -/
theorem Table.slots_ofLists {lists : List (List Int)} {table : Table}
    (h : Table.ofLists lists = .ok table) :
    table.slots.toList = lists ++ List.replicate (jointSlots - lists.length) [] := by
  rw [Table.ofLists] at h
  split at h
  · cases h
  · next hlength =>
      obtain rfl := Except.ok.inj h
      rw [Vector.toList_ofFn]
      have hsum : lists.length + (jointSlots - lists.length) = jointSlots := by omega
      refine List.ext_getElem (by simp [hsum]) fun i hi _ => ?_
      rw [List.getElem_ofFn, List.getElem_append]
      by_cases hin : i < lists.length
      · rw [dif_pos hin, List.getD_eq_getElem?_getD, List.getElem?_eq_getElem hin]
        rfl
      · rw [dif_neg hin, List.getD_eq_getElem?_getD, List.getElem?_eq_none (Nat.not_lt.1 hin)]
        simp

theorem Table.joint_ofLists {lists : List (List Int)} {table : Table}
    (h : Table.ofLists lists = .ok table) (i : Nat) : table.joint i = lists.getD i [] := by
  rw [Table.joint, Table.slots_ofLists h, List.getD_eq_getElem?_getD, List.getD_eq_getElem?_getD]
  by_cases hin : i < lists.length
  · rw [List.getElem?_append_left hin]
  · have hout : lists.length ≤ i := Nat.not_lt.1 hin
    rw [List.getElem?_append_right hout, List.getElem?_eq_none hout, List.getElem?_replicate]
    split <;> rfl

theorem flatMap_filter_of_nil {α β : Type} {p : α → Bool} {f : α → List β} (xs : List α)
    (h : ∀ x, p x = false → f x = []) : (xs.filter p).flatMap f = xs.flatMap f := by
  induction xs with
  | nil => rfl
  | cons x rest ih =>
      cases hx : p x with
      | true => rw [List.filter_cons_of_pos hx, List.flatMap_cons, List.flatMap_cons, ih]
      | false =>
          rw [List.filter_cons_of_neg (by simp [hx]), List.flatMap_cons, h x hx, ih]
          rfl

theorem Report.ofTable_eq (describe : Int → Option String) (table : Table) :
    Report.ofTable describe table = Report.ofLists describe table.slots.toList := by
  rw [Report.ofTable, Table.faults, List.flatMap_map]
  refine flatMap_filter_of_nil _ fun (ids, i) hfree => ?_
  obtain rfl : ids = [] := by simpa using hfree
  rfl

theorem Report.ofLists_replicate (describe : Int → Option String) (lists : List (List Int))
    (n : Nat) :
    Report.ofLists describe (lists ++ List.replicate n []) = Report.ofLists describe lists := by
  rw [Report.ofLists, Report.ofLists, List.zipIdx_append, List.flatMap_append]
  refine List.append_right_eq_self.2 (List.flatMap_eq_nil_iff.2 fun (ids, i) hmem => ?_)
  obtain rfl : ids = [] := List.eq_of_mem_replicate (List.fst_mem_of_mem_zipIdx hmem)
  rfl

/-- A report is that of the lists that were sent, slot by slot. -/
theorem Report.ofTable_ofLists {lists : List (List Int)} {table : Table}
    (describe : Int → Option String) (h : Table.ofLists lists = .ok table) :
    Report.ofTable describe table = Report.ofLists describe lists := by
  rw [Report.ofTable_eq, Table.slots_ofLists h, Report.ofLists_replicate]

/-- A number has the text of the last entry that gives it one. -/
theorem Messages.text?_ofList (entries : List (Int × String)) (id : Int) :
    (Messages.ofList entries).text? id =
      ((entries.filter fun entry => entry.1 = id).getLast?).map Prod.snd := by
  -- The entries are kept in reverse, and the first of them answers.
  have hlookup (entries : List (Int × String)) :
      entries.lookup id = ((entries.filter fun entry => entry.1 = id).head?).map Prod.snd := by
    induction entries with
    | nil => rfl
    | cons entry rest ih =>
        obtain ⟨key, text⟩ := entry
        rw [List.lookup_cons]
        by_cases hkey : key = id
        · simp [hkey]
        · have hother : (id == key) = false := beq_false_of_ne (Ne.symm hkey)
          rw [hother, List.filter_cons_of_neg (by simpa using hkey)]
          exact ih
  show entries.reverse.lookup id = _
  rw [hlookup, List.filter_reverse, List.head?_reverse]

end Fault

/-- A table is read as the messages of the entries that its text has. -/
theorem Record.readMessages_ok_iff {table : String} {entries : List (Int × String)} :
    readMessages table = .ok (.ofList entries) ↔
      ∃ documents, Json.Document.ofText? table = some (.array documents) ∧
        documents.mapM readMessage? = some entries := by
  rw [readMessages]
  split
  · next documents hdocument =>
      cases hentries : documents.mapM readMessage? with
      | none =>
          refine ⟨fun h => (by cases h), fun ⟨found, hfound, hmap⟩ => ?_⟩
          obtain rfl := Json.Document.array.inj (Option.some.inj (hdocument.symm.trans hfound))
          rw [hentries] at hmap
          cases hmap
      | some read =>
          refine ⟨fun h => ?_, fun ⟨found, hfound, hmap⟩ => ?_⟩
          · have hreverse := Fault.Messages.mk.inj (Except.ok.inj h)
            exact ⟨documents, hdocument, by rw [hentries, List.reverse_injective hreverse]⟩
          · obtain rfl := Json.Document.array.inj (Option.some.inj (hdocument.symm.trans hfound))
            rw [Option.some.inj (hentries.symm.trans hmap)]
  · next hother =>
      exact ⟨fun h => (by cases h), fun ⟨documents, hdocument, _⟩ => absurd hdocument (hother _)⟩

/-! ## The whole way -/

namespace Dashboard

/-- What the controller has written is what the call gives back. -/
theorem call_written {limit : Nat} {b after : Bench} {command : Command} {payload : String}
    (sends : Sends limit command b after) (hecho : Reply.Echoes command.text.toList)
    (hpayload : ∀ c ∈ payload.toList, c.toNat < 128 ∧ c ≠ Reply.terminator)
    (come : HasCome (Reply.written 0 payload command.text) after.dashboard.inbox) :
    (call limit command b).1 = .ok ⟨0, String.ofList (Text.trim payload.toList), command.text,
      Reply.written 0 payload command.text⟩ := by
  obtain ⟨head, hwritten, hhead, hascii⟩ := Reply.written_ends 0 hpayload hecho
  obtain ⟨padding, hpadding, hfront⟩ := come.lineInFront? hwritten hhead hascii
  have hparse := @Reply.parse_written 0 payload _ padding (by decide) hecho hpadding
  refine (call_eq_iff fun _ h => (by cases h)).2 ⟨after, _, sends, hfront, ?_⟩
  exact accept_ok_iff.2 ⟨hparse, rfl⟩

theorem up_of_call_ok {limit : Nat} {b : Bench} {command : Command} {reply : Reply}
    (h : (call limit command b).1 = .ok reply) : (call limit command b).2.dashboard.up = true := by
  have houtcome := call_outcome limit command b
  rw [h] at houtcome
  cases houtcome with
  | answered _ _ up => exact up

theorem Request.readTable_eq {reply : Reply} {lists : List (List Int)}
    (h : Payload.readLists reply.payload.toList = .ok lists) :
    readTable reply = (Fault.Table.ofLists lists).mapError (.malformed · reply.line) := by
  rw [readTable, Reply.lists, h]
  show reply.reading (Fault.Table.ofLists lists) = _
  cases Fault.Table.ofLists lists <;> rfl

/-- The slots are those that the controller gave, or it gave too many, and the link stays up. -/
theorem faultTable_written {limit : Nat} {b after : Bench} {lists : List (List Int)}
    {payload : String} (sends : Sends limit (.bare "GetErrorID") b after)
    (come : HasCome (Reply.written 0 payload "GetErrorID()") after.dashboard.inbox)
    (gives : Payload.Gives lists payload) :
    (faultTable limit b).1 = (Fault.Table.ofLists lists).mapError
        (.malformed · (Reply.written 0 payload "GetErrorID()")) ∧
      (faultTable limit b).2.dashboard.up = true := by
  have hecho : Reply.Echoes (Command.text (.bare "GetErrorID")).toList := by
    rw [Command.text, String.toList_ofList]
    exact @Request.echoes_command .errorIds _ rfl trivial
  have htext : Command.text (.bare "GetErrorID") = "GetErrorID()" := rfl
  have hcall := call_written sends hecho
    (fun c hc => ⟨gives.ascii c hc, fun heq => gives.unended (heq ▸ hc)⟩) (htext ▸ come)
  have hup := up_of_call_ok hcall
  rw [htext] at hcall
  rw [faultTable]
  split
  · next reply next heq =>
      rw [heq] at hcall hup
      obtain rfl := Except.ok.inj hcall
      refine ⟨?_, hup⟩
      have hpayload : Payload.readLists (String.ofList (Text.trim payload.toList)).toList =
          Payload.readLists (Text.trim payload.toList) := by rw [String.toList_ofList]
      rcases gives.readLists with hread | ⟨rfl, hread⟩
      · exact Request.readTable_eq (hpayload.trans hread)
      · -- One list without faults leaves every slot as no list at all does.
        have hempty : Fault.Table.ofLists [[]] = Fault.Table.ofLists [] := rfl
        rw [← hempty]
        exact Request.readTable_eq (hpayload.trans hread)
  · next heq =>
      rw [heq] at hcall
      cases hcall

end Dashboard

namespace Arm

open ArmLink.Json (Document)

/-- Whatever faults the controller gives for at most six joints, and however it writes them, the
report is of these faults in this order, each with its joint and with the text that the table gave
its number last. Slots that were not given have no faults. More than six cannot be understood. The
link stays up either way. -/
theorem report_of_written_faults {a : Arm} {after : Bench} {lists : List (List Int)}
    {payload table : String} {entries : List (Int × String)}
    (sends : Dashboard.Sends a.config.patience.reply (.bare "GetErrorID") a.bench after)
    (come : Dashboard.HasCome (Reply.written 0 payload "GetErrorID()") after.dashboard.inbox)
    (gives : Payload.Gives lists payload)
    (hentries : ∃ documents, Document.ofText? table = some (.array documents) ∧
      documents.mapM Record.readMessage? = some entries)
    (hmessages : a.messages = (Record.readMessages table).toOption) :
    (lists.length ≤ 6 →
      a.faultReport.1 = .ok (lists.zipIdx.flatMap fun (ids, i) => ids.map fun id =>
        ⟨i + 1, id, ((entries.filter fun entry => entry.1 = id).getLast?).map Prod.snd⟩) ∧
      ∃ slots, (Dashboard.faultTable a.config.patience.reply a.bench).1 = .ok slots ∧
        ∀ i, slots.joint i = lists.getD i []) ∧
    (6 < lists.length → a.faultReport.1 =
      .error (.malformed (.slots 6 lists.length) (Reply.written 0 payload "GetErrorID()"))) ∧
    a.faultReport.2.bench.dashboard.up = true := by
  obtain ⟨htable, hup⟩ := Dashboard.faultTable_written sends come gives
  have hdescribe : a.describe =
      fun id => ((entries.filter fun entry => entry.1 = id).getLast?).map Prod.snd := by
    funext id
    rw [describe, hmessages, Record.readMessages_ok_iff.2 hentries]
    exact Fault.Messages.text?_ofList entries id
  have hreport : a.faultReport.1 = ((Fault.Table.ofLists lists).mapError
      (.malformed · (Reply.written 0 payload "GetErrorID()"))).map
        (Fault.Report.ofTable a.describe) :=
    congrArg (Except.map (Fault.Report.ofTable a.describe)) htable
  refine ⟨fun hfits => ?_, fun hlong => ?_, hup⟩
  · obtain ⟨slots, hslots⟩ : ∃ slots, Fault.Table.ofLists lists = .ok slots :=
      ⟨_, if_neg (Nat.not_lt.2 hfits)⟩
    rw [hslots] at htable hreport
    refine ⟨?_, slots, htable, fun i => ?_⟩
    · rw [hreport]
      show Except.ok (Fault.Report.ofTable a.describe slots) = _
      rw [Fault.Report.ofTable_ofLists a.describe hslots, hdescribe]
      rfl
    · exact Fault.Table.joint_ofLists hslots i
  · have hslots : Fault.Table.ofLists lists = .error (.slots 6 lists.length) := if_pos hlong
    rw [hreport, hslots]
    rfl

/-- Three joints inside an outer pair, in two pieces with a line end before and behind, and a table
in which one number has two texts. -/
theorem report_of_written_faults_two_texts :
    let latest := "\x7b\"id\": 22, \"en\": \x7b\"description\": \"new\"\x7d\x7d"
    let table := "[[22, [\"old\"]], [1, [\"one\"]], " ++ latest ++ "]"
    let payload := " [ [22 ,-9223372036854775808],[ ] ,\t[22]]"
    let whole := Utf8.encode (Reply.written 0 payload "GetErrorID()")
    let pieces := [[13, 10] ++ whole.take 9, whole.drop 9 ++ [10]]
    let link := { Link.fresh "down" true with
      up := true, inbox := pieces.map .bytes ++ [.quiet] }
    let config := Config.forAddress "controller"
    let a := { Arm.new config { config.unreachable with dashboard := link } with
      messages := (Record.readMessages table).toOption }
    a.faultReport.1 = .ok [⟨1, 22, some "new"⟩, ⟨1, -9223372036854775808, none⟩,
      ⟨3, 22, some "new"⟩] := by
  intro latest table payload whole pieces link config a
  have hread : Record.readMessages table = .ok (.ofList [(22, "old"), (1, "one"), (22, "new")]) :=
    Dashboard.eq_ok_of_toOption (by decide +kernel)
  let after := (a.bench.sendDashboard "GetErrorID()").2
  have hsends : Dashboard.Sends a.config.patience.reply (.bare "GetErrorID") a.bench after :=
    ⟨rfl, rfl, by decide, by decide +kernel⟩
  have hcome : Dashboard.HasCome (Reply.written 0 payload "GetErrorID()") after.dashboard.inbox :=
    ⟨pieces, [13, 10], [10], [.quiet], by decide +kernel, by decide +kernel,
      List.forall_mem_cons.2 ⟨by decide, List.forall_mem_singleton.2 (by decide)⟩,
      List.forall_mem_singleton.2 (by decide)⟩
  have hplain : Blank [] ∧ Blank [] := ⟨by decide, by decide⟩
  have htwo : Payload.Ids [22, -9223372036854775808] _ :=
    .cons ⟨hplain.1, (by decide : Blank [' '])⟩ (.last hplain)
  have hnone : Payload.Ids [] [' '] := .none (by decide)
  have hone : Payload.Ids [22] _ := .last hplain
  have hrow : Payload.Row _ _ := .cons htwo.unbracketed hplain
    (.cons hnone.unbracketed ⟨(by decide : Blank [' ']), (by decide : Blank ['\t'])⟩
      (.last hone.unbracketed))
  have hspells : Payload.Spells [[22, -9223372036854775808], [], [22]] _ :=
    .outer (.cons htwo (.cons hnone (.cons hone .nil))) hrow ⟨(by decide : Blank [' ']), hplain.1⟩
  have hgives : Payload.Gives [[22, -9223372036854775808], [], [22]] payload :=
    ⟨⟨[' '], _, [], by decide +kernel, by decide, by decide, hspells⟩,
      fun c hc => (Dashboard.Exchange.plain_of_all (by decide +kernel) c hc).1, by decide⟩
  have hmessages : a.messages = (Record.readMessages table).toOption := rfl
  exact ((report_of_written_faults hsends hcome hgives (Record.readMessages_ok_iff.1 hread)
    hmessages).1 (by decide)).1

end Arm

end ArmLink
