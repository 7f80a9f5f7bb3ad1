import ArmLink.Proofs.InStep
import ArmLink.Proofs.LeftAlone

/-!
# The line in front of the link

A call sends its command and then reads one line, and nothing compares what the line
echoes with what was sent. So what a call takes for its reply has nothing to do with
the command: it is the line in front of the link, `lineInFront?`, made of the bytes
that have come and of nothing else, and this file says so for whatever has come,
in whatever pieces. A line that was there before the command was sent stays in front,
and is the answer to it.

That is how one line too many shifts every later answer. It is no contradiction to
the exchanges that stay in step: there the controller answers each command once,
and every line it sends comes behind the command that it is for.
-/

namespace ArmLink.Dashboard

open ArmLink.Reply (terminator)
open ArmLink.Text (Utf8.decodeLossy)

/-- The text of some bytes as they are read, in pieces of which each is decoded by itself. -/
def spelled (data : List UInt8) : List Char :=
  if data.length ≤ pieceSize then (Utf8.decodeLossy data).toList
  else (Utf8.decodeLossy (data.take pieceSize)).toList ++ spelled (data.drop pieceSize)
termination_by data.length
decreasing_by
  rw [List.length_drop]
  have hpiece : 0 < pieceSize := by decide
  omega

/-- The text of the bytes that have come, up to the first thing that is not bytes. -/
def heard : List Arrival → List Char
  | .bytes data :: rest => spelled data ++ heard rest
  | _ => []

/-- The line that the next reply is taken from. -/
def lineInFront? (inbox : List Arrival) : Option String :=
  (throughTerminator? (heard inbox)).map String.ofList

/-! ## Lines and what comes behind them -/

theorem throughTerminator?_of_mem {text : List Char} (h : terminator ∈ text) (more : List Char) :
    throughTerminator? (text ++ more) = throughTerminator? text := by
  obtain ⟨head, tail, rfl, hhead⟩ := List.eq_append_cons_of_mem h
  have hshort : head ++ terminator :: tail ++ [] = head ++ terminator :: tail :=
    List.append_nil _
  have hlong : head ++ terminator :: tail ++ more ++ [] = head ++ terminator :: (tail ++ more) := by
    rw [List.append_nil, List.append_assoc, List.cons_append]
  rw [(throughTerminator?_eq h hhead hshort).1,
    (throughTerminator?_eq (List.mem_append_left _ h) hhead hlong).1]

theorem throughTerminator?_of_not_mem {text : List Char} (h : terminator ∉ text) :
    throughTerminator? text = none := by
  rw [throughTerminator?, if_neg h]

theorem mem_of_throughTerminator? {text line : List Char}
    (h : throughTerminator? text = some line) : terminator ∈ text := by
  rw [throughTerminator?] at h
  split at h
  · next hmem => exact hmem
  · cases h

theorem heard_append (xs ys : List Arrival) : heard xs <+: heard (xs ++ ys) := by
  induction xs with
  | nil => exact List.nil_prefix
  | cons arrival rest ih =>
      cases arrival with
      | bytes data => exact (List.prefix_append_right_inj _).2 ih
      | quiet | broken | faulty => exact List.nil_prefix

/-- A line in front stays in front, whatever comes behind it. -/
theorem lineInFront?_append {xs : List Arrival} {line : String} (h : lineInFront? xs = some line)
    (ys : List Arrival) : lineInFront? (xs ++ ys) = some line := by
  obtain ⟨more, hmore⟩ := heard_append xs ys
  obtain ⟨chars, hchars, -⟩ := Option.map_eq_some_iff.1 h
  rw [lineInFront?, ← hmore, throughTerminator?_of_mem (mem_of_throughTerminator? hchars)]
  exact h

/-! ## Reading -/

section

variable {command line : String} {limit fuel : Nat} {got : List Char} {link next : Link}

/-- What a receive of one piece does to the text that is on the link. -/
theorem heard_of_receive {bytes : List UInt8}
    (h : link.receive pieceSize = (.data bytes, next)) :
    heard link.inbox = (Utf8.decodeLossy bytes).toList ++ heard next.inbox ∧
      next.load < link.load := by
  refine ⟨?_, Link.load_receive (by decide) h⟩
  cases Link.receives_of_eq h with
  | whole _ inbox fits => rw [inbox, heard, spelled, if_pos fits]
  | part _ inbox long =>
      rw [inbox, heard, spelled, if_neg (Nat.not_le.2 long), List.append_assoc]
      rfl

/-- A receive that brings no bytes finds no more text on a link that is up. -/
theorem heard_of_silence {result : Received} (h : link.receive pieceSize = (result, next))
    (hdata : ∀ bytes, result ≠ .data bytes) (hup : link.up = true) : heard link.inbox = [] := by
  cases Link.receives_of_eq h with
  | offline down => exact absurd (hup.symm.trans down) (by decide)
  | whole | part => exact absurd rfl (hdata _)
  | waiting _ inbox | silent _ inbox | quiet _ inbox | broken _ inbox | faulty _ inbox =>
      rw [inbox, heard.eq_def]

theorem readReplyFrom_ok_iff (hgot : terminator ∉ got) (hfuel : link.load < fuel) :
    (readReplyFrom command limit fuel got link).1 = .ok line ↔
      link.up = true ∧ (throughTerminator? (got ++ heard link.inbox)).map String.ofList = some line := by
  induction fuel generalizing got link with
  | zero => exact absurd hfuel (Nat.not_lt_zero _)
  | succ fuel ih =>
      -- Where nothing more is heard, the text so far holds no line.
      have hfails {result : Received} {next : Link} {f : Failure}
          (hreceive : link.receive pieceSize = (result, next))
          (hdata : ∀ bytes, result ≠ .data bytes) :
          (.error f : Except Failure String) = .ok line ↔ link.up = true ∧
            (throughTerminator? (got ++ heard link.inbox)).map String.ofList = some line := by
        refine ⟨fun h => (by cases h), fun ⟨hup, hline⟩ => ?_⟩
        rw [heard_of_silence hreceive hdata hup, List.append_nil,
          throughTerminator?_of_not_mem hgot] at hline
        cases hline
      rw [readReplyFrom]
      split
      · next bytes next hreceive =>
          obtain ⟨hup, hstays, -⟩ := Link.receive_data hreceive
          obtain ⟨hheard, hload⟩ := heard_of_receive hreceive
          rw [hheard, ← List.append_assoc]
          by_cases hmem : terminator ∈ got ++ (Utf8.decodeLossy bytes).toList
          · rw [throughTerminator?_of_mem hmem]
            cases hline : throughTerminator? (got ++ (Utf8.decodeLossy bytes).toList) with
            | none =>
                rw [throughTerminator?, if_pos hmem] at hline
                cases hline
            | some chars =>
                simp only [hline, Except.ok.injEq, Option.map_some, Option.some.injEq]
                exact ⟨fun h => ⟨hup, h⟩, fun h => h.2⟩
          · simp only [throughTerminator?_of_not_mem hmem]
            rw [ih hmem (by omega), hup, hstays]
      · next hreceive => exact hfails hreceive (by simp)
      · next hreceive => exact hfails hreceive (by simp)
      · next hreceive => exact hfails hreceive (by simp)

/-- A reply is read exactly when there is time and a link that is up has a line in front, and it
is that line. -/
theorem readReply_ok_iff : (readReply command limit link).1 = .ok line ↔
    limit ≠ 0 ∧ link.up = true ∧ lineInFront? link.inbox = some line := by
  rw [readReply]
  split
  · next hzero => exact ⟨fun h => (by cases h), fun h => absurd hzero h.1⟩
  · next hlimit =>
      rw [readReplyFrom_ok_iff List.not_mem_nil (Nat.lt_succ_self _), List.nil_append]
      exact ⟨fun h => ⟨hlimit, h⟩, fun h => h.2⟩

end

/-! ## Calls -/

/-- The command goes out, and there is time and a link to read a reply from. -/
structure Sends (limit : Nat) (command : Command) (b after : Bench) : Prop where
  valid : command.check = .ok ()
  sent : b.sendDashboard command.text = (.ok (), after)
  timed : limit ≠ 0
  up : after.dashboard.up = true

theorem inbox_send (text : String) (link : Link) : (link.send text).2.inbox = link.inbox := by
  rw [Link.send]
  split
  · split <;> rfl
  · rfl

/-- What was on the link before a command is sent is in front of what comes behind the send. -/
theorem inbox_sendDashboard {b after : Bench} {text : String}
    (h : b.sendDashboard text = (.ok (), after)) : b.dashboard.inbox <+: after.dashboard.inbox := by
  rw [Bench.sendDashboard] at h
  split at h
  · next dashboard hsend =>
      have hinbox := inbox_send text b.dashboard
      rw [hsend] at hinbox
      obtain rfl := (Prod.mk.inj h).2
      rw [← hinbox]
      exact (Bench.leftAlone_heardDashboard { b with dashboard } text .dashboard).inbox
  · simp at h

/-- A call judges the line in front of the link, or it never gets as far as a line. -/
theorem call_cases (limit : Nat) (command : Command) (b : Bench) :
    (∃ after line, Sends limit command b after ∧
      lineInFront? after.dashboard.inbox = some line ∧
      (call limit command b).1 = accept command.text line) ∨
    (∃ failure, (call limit command b).1 = .error failure ∧
      (failure.isConnection = true ∨ ∃ fault, failure = .argument fault) ∧
      ∀ after line, Sends limit command b after → lineInFront? after.dashboard.inbox ≠ some line) := by
  rw [call]
  split
  · next failure hcheck =>
      refine .inr ⟨failure, rfl, .inr (check_error hcheck), fun after line hsends => ?_⟩
      rw [hsends.valid] at hcheck
      cases hcheck
  · next hcheck =>
      split
      · next failure _ hsend =>
          obtain ⟨⟨text, rfl⟩, -, -⟩ := sendDashboard_error hsend
          refine .inr ⟨_, rfl, .inl rfl, fun after line hsends => ?_⟩
          rw [hsends.sent] at hsend
          cases hsend
      · next after hsend =>
          split
          · next failure dashboard hread =>
              obtain ⟨hconnection, -⟩ := readReply_error hread
              refine .inr ⟨failure, rfl, .inl hconnection, fun after' line hsends hline => ?_⟩
              obtain rfl : after' = after := (Prod.mk.inj (hsends.sent.symm.trans hsend)).2
              have hok : (readReply command.text limit after'.dashboard).1 = .ok line :=
                readReply_ok_iff.2 ⟨hsends.timed, hsends.up, hline⟩
              rw [hread] at hok
              cases hok
          · next line dashboard hread =>
              have hok : (readReply command.text limit after.dashboard).1 = .ok line := by rw [hread]
              obtain ⟨htimed, hup, hline⟩ := readReply_ok_iff.1 hok
              exact .inl ⟨after, line, ⟨hcheck, hsend, htimed, hup⟩, hline, rfl⟩

theorem accept_ok_iff {command line : String} {reply : Reply} :
    accept command line = .ok reply ↔ Reply.parse line = .ok reply ∧ reply.status = 0 := by
  rw [accept]
  cases hparse : Reply.parse line with
  | error failure => exact ⟨fun h => (by cases h), fun h => (by cases h.1)⟩
  | ok parsed =>
      show (if parsed.accepted then _ else _) = _ ↔ _
      split
      · next haccepted =>
          have hzero : parsed.status = 0 := of_decide_eq_true haccepted
          refine ⟨fun h => ⟨h, ?_⟩, fun h => h.1⟩
          rw [← Except.ok.inj h]
          exact hzero
      · next hrefused =>
          refine ⟨fun h => (by cases h), fun h => ?_⟩
          have hzero : parsed.status = 0 := by
            rw [Except.ok.inj h.1]
            exact h.2
          exact absurd (decide_eq_true hzero) hrefused

theorem accept_rejected_iff {command line text : String} {status : Int} :
    accept command line = .error (.rejected status text) ↔
      text = command ∧ status ≠ 0 ∧ ∃ reply, Reply.parse line = .ok reply ∧ reply.status = status := by
  rw [accept]
  cases hparse : Reply.parse line with
  | error failure =>
      obtain ⟨fault, line, rfl⟩ := malforms_parse line failure hparse
      refine ⟨fun h => (by cases h), fun h => ?_⟩
      obtain ⟨-, -, reply, hreply, -⟩ := h
      cases hreply
  | ok parsed =>
      show (if parsed.accepted then _ else _) = _ ↔ _
      split
      · next haccepted =>
          have hzero : parsed.status = 0 := of_decide_eq_true haccepted
          refine ⟨fun h => (by cases h), fun h => ?_⟩
          obtain ⟨-, hne, reply, hreply, hstatus⟩ := h
          rw [← hstatus, ← Except.ok.inj hreply] at hne
          exact absurd hzero hne
      · next hrefused =>
          have hne : parsed.status ≠ 0 := fun hzero => hrefused (decide_eq_true hzero)
          refine ⟨fun h => ?_, fun h => ?_⟩
          · obtain ⟨rfl, rfl⟩ := Failure.rejected.inj (Except.error.inj h)
            exact ⟨rfl, hne, parsed, rfl, rfl⟩
          · obtain ⟨htext, -, reply, hreply, hstatus⟩ := h
            rw [htext, ← hstatus, ← Except.ok.inj hreply]

/-- A call comes to what the line in front of the link is judged to be, unless it fails for its
arguments or over the link. -/
theorem call_eq_iff {limit : Nat} {command : Command} {b : Bench} {x : Except Failure Reply}
    (hx : ∀ failure, x = .error failure →
      failure.isConnection = false ∧ ∀ fault, failure ≠ .argument fault) :
    (call limit command b).1 = x ↔ ∃ after line, Sends limit command b after ∧
      lineInFront? after.dashboard.inbox = some line ∧ accept command.text line = x := by
  rcases call_cases limit command b with
    ⟨after, line, hsends, hline, hresult⟩ | ⟨failure, hresult, hkind, hnone⟩
  · rw [hresult]
    refine ⟨fun h => ⟨after, line, hsends, hline, h⟩, fun ⟨after', line', hsends', hline', h⟩ => ?_⟩
    obtain rfl : after' = after := (Prod.mk.inj (hsends'.sent.symm.trans hsends.sent)).2
    obtain rfl := Option.some.inj (hline.symm.trans hline')
    exact h
  · refine ⟨fun h => ?_, fun ⟨after, line, hsends, hline, _⟩ => absurd hline (hnone _ _ hsends)⟩
    obtain ⟨hnot, hother⟩ := hx failure (h.symm.trans hresult)
    rcases hkind with hconnection | ⟨fault, rfl⟩
    · rw [hnot] at hconnection
      cases hconnection
    · exact absurd rfl (hother fault)

/-- A call that is accepted or rejected is so by the line in front of the link behind its send, and
that is the line that was in front before, if there was one, whatever the command. -/
theorem call_takes_line_in_front (limit : Nat) (command : Command) (b : Bench) :
    let result := (call limit command b).1
    (∀ reply, result = .ok reply ↔ ∃ after line, Sends limit command b after ∧
      lineInFront? after.dashboard.inbox = some line ∧
      Reply.parse line = .ok reply ∧ reply.status = 0) ∧
    (∀ status text, result = .error (.rejected status text) ↔
      ∃ after line, Sends limit command b after ∧
        lineInFront? after.dashboard.inbox = some line ∧
        text = command.text ∧ status ≠ 0 ∧
        ∃ reply, Reply.parse line = .ok reply ∧ reply.status = status) ∧
    ∀ line, lineInFront? b.dashboard.inbox = some line →
      ∀ after, Sends limit command b after → lineInFront? after.dashboard.inbox = some line := by
  intro result
  refine ⟨fun reply => ?_, fun status text => ?_, fun line hline after hsends => ?_⟩
  · rw [show result = (call limit command b).1 from rfl,
      call_eq_iff (x := .ok reply) fun _ h => (by cases h)]
    simp only [accept_ok_iff]
  · rw [show result = (call limit command b).1 from rfl,
      call_eq_iff (x := .error (.rejected status text)) fun _ h => ?_]
    · simp only [accept_rejected_iff]
    · rw [← Except.error.inj h]
      exact ⟨rfl, fun _ hfault => by cases hfault⟩
  · obtain ⟨more, hmore⟩ := inbox_sendDashboard hsends.sent
    rw [← hmore]
    exact lineInFront?_append hline more

theorem eq_ok_of_toOption {α : Type} {x : Except Failure α} {value : α}
    (h : x.toOption = some value) : x = .ok value := by
  cases x with
  | error failure => cases h
  | ok found => rw [Option.some.inj h]

/-- A line that comes once too often is still there when the next command is sent. The controller
refuses to enable the robot, and the call takes the other line. -/
theorem call_takes_line_in_front_duplicate :
    let cleared := "0,\x7b\x7d,ClearError();"
    let refused := "-1,\x7b\x7d,EnableRobot();"
    let inbox := [Arrival.bytes (Text.Utf8.encode cleared)]
    let link := { Link.fresh "down" true with up := true, inbox }
    let controller : Controller := ⟨[⟨some "EnableRobot()", [refused]⟩], [], []⟩
    let b := { (Config.forAddress "controller").unreachable with dashboard := link, controller }
    let command := Command.bare "EnableRobot"
    let after := (b.sendDashboard command.text).2
    after.dashboard.inbox.length = 2 ∧ lineInFront? after.dashboard.inbox = some cleared ∧
      (call 500 command b).1 = .ok ⟨0, "", "ClearError()", cleared⟩ := by
  intro cleared refused inbox link controller b command after
  have hsent : b.sendDashboard command.text = (.ok (), after) := rfl
  have hsends : Sends 500 command b after := ⟨rfl, hsent, by decide, by decide +kernel⟩
  have hfront : lineInFront? b.dashboard.inbox = some cleared := by decide +kernel
  obtain ⟨hok, -, hstays⟩ := call_takes_line_in_front 500 command b
  have hline := hstays cleared hfront after hsends
  have hparse : Reply.parse cleared = .ok ⟨0, "", "ClearError()", cleared⟩ :=
    eq_ok_of_toOption (by decide +kernel)
  exact ⟨by decide +kernel, hline, (hok _).2 ⟨after, cleared, hsends, hline, hparse, rfl⟩⟩

/-- What a call takes for its reply need not echo its command. -/
theorem reply_need_not_echo_command :
    ¬ ∀ (limit : Nat) (b : Bench) (acts : List Act) (command : Command) (reply : Reply),
      (call limit command (course limit b acts)).1 = .ok reply → reply.echoName = command.name := by
  intro hall
  let cleared := "0,\x7b\x7d,ClearError();"
  let refused := "-1,\x7b\x7d,EnableRobot();"
  let link := { Link.fresh "down" true with
    up := true, inbox := [.bytes (Text.Utf8.encode cleared)] }
  let controller : Controller :=
    ⟨[⟨some "ClearError()", [cleared]⟩, ⟨some "EnableRobot()", [refused]⟩], [], []⟩
  let b := { (Config.forAddress "controller").unreachable with dashboard := link, controller }
  let acts := [Act.ask (.request .clearError)]
  have hok : (call 500 (.bare "EnableRobot") (course 500 b acts)).1 =
      .ok ⟨0, "", "ClearError()", cleared⟩ := eq_ok_of_toOption (by decide +kernel)
  exact absurd (hall 500 b acts (.bare "EnableRobot") _ hok) (by decide +kernel)

end ArmLink.Dashboard
