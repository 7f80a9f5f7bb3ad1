import ArmLink.Arm

/-!
# Failures and the dashboard link

Whoever asks something of the dashboard learns from the failure alone whether the
link has to be opened again. That is a promise about every way in which an
exchange can end, so the ways are listed once, in `Outcome`, and everything else
is read off the list: a failure that says so leaves the link down, every other end
leaves it up, a link that is down is not used, and a refused argument never gets
as far as the link.

The promise is worth something because the link stays down. No query dials, which
is said in the strongest way there is: whatever is laid down for dials, before a
query and behind it, is passed through. Only an accepted connect brings the link
up again, so a reply that came too late for its own query finds nobody who would
take it for the answer to another one.
-/

namespace ArmLink.Dashboard

/-! ## Readings that fail

A reply that came whole can still fail to say what was asked for. All such
failures are of one kind. -/

/-- A reading fails in no other way than over the text of a reply. -/
def Malforms {α : Type} (x : Except Failure α) : Prop :=
  ∀ failure, x = .error failure → ∃ fault line, failure = .malformed fault line

theorem malforms_ok {α : Type} (a : α) : Malforms (.ok a : Except Failure α) :=
  fun _ h => nomatch h

theorem malforms_error {α : Type} (fault : PayloadFault) (line : String) :
    Malforms (.error (.malformed fault line) : Except Failure α) := by
  intro failure h
  exact ⟨fault, line, (Except.error.inj h).symm⟩

theorem Malforms.bind {α β : Type} {x : Except Failure α} {f : α → Except Failure β}
    (hx : Malforms x) (hf : ∀ a, Malforms (f a)) : Malforms (x >>= f) := by
  cases x with
  | error failure =>
      intro g hg
      obtain rfl : failure = g := Except.error.inj hg
      exact hx failure rfl
  | ok a => exact hf a

theorem Malforms.map {α β : Type} {x : Except Failure α} (hx : Malforms x) (f : α → β) :
    Malforms (x.map f) := by
  cases x with
  | error failure =>
      intro g hg
      obtain rfl : failure = g := Except.error.inj hg
      exact hx failure rfl
  | ok a => exact malforms_ok _

theorem malforms_reading {α : Type} (reply : Reply) (x : Except PayloadFault α) :
    Malforms (reply.reading x) := by
  cases x with
  | error fault => exact malforms_error fault reply.line
  | ok value => exact malforms_ok value

theorem malforms_vector (reply : Reply) (n : Nat) : Malforms (reply.vector n) := by
  refine (malforms_reading reply _).bind fun values => ?_
  split
  · exact malforms_ok _
  · exact malforms_error _ _

theorem malforms_integer (reply : Reply) : Malforms reply.integer := by
  refine (malforms_vector reply 1).bind fun values => ?_
  split
  · exact malforms_ok _
  · exact malforms_error _ _

theorem malforms_readTable (reply : Reply) : Malforms (Request.readTable reply) :=
  (malforms_reading reply _).bind fun _ => malforms_reading reply _

/-- A typed method fails over the reply it reads in no other way. -/
theorem malforms_read (request : Request) (reply : Reply) : Malforms (request.read reply) := by
  cases request with
  | robotMode | digitalInput => exact (malforms_integer reply).map _
  | angles | pose => exact (malforms_vector reply 6).map _
  | errorIds => exact (malforms_readTable reply).map _
  | _ => exact malforms_ok _

theorem malforms_parse (line : String) : Malforms (Reply.parse line) := by
  unfold Reply.parse
  simp only
  split
  · exact malforms_error _ _
  · split
    · exact malforms_error _ _
    · exact malforms_ok _

/-! ## The ways in which an exchange can end -/

/-- How a use of the dashboard can end that begins at `now`; `valid` is that its arguments are. -/
inductive Outcome {α : Type} (valid : Prop) (now : Bench) : Except Failure α → Bench → Prop where
  /-- The arguments were refused, and nothing was done. -/
  | refused (fault : ArgumentFault) (invalid : ¬ valid) :
      Outcome valid now (.error (.argument fault)) now
  /-- The link was down, and nothing was done. -/
  | offline (text : String) (down : now.dashboard.up = false) :
      Outcome valid now (.error (.connection (.reported text))) now
  | lost {failure : Failure} {after : Bench} (isConnection : failure.isConnection = true)
      (was : now.dashboard.up = true) (down : after.dashboard.up = false) :
      Outcome valid now (.error failure) after
  | rejected (status : Int) (command : String) {after : Bench} (was : now.dashboard.up = true)
      (up : after.dashboard.up = true) : Outcome valid now (.error (.rejected status command)) after
  | malformed (fault : PayloadFault) (line : String) {after : Bench}
      (was : now.dashboard.up = true) (up : after.dashboard.up = true) :
      Outcome valid now (.error (.malformed fault line)) after
  | answered (value : α) {after : Bench} (was : now.dashboard.up = true)
      (up : after.dashboard.up = true) : Outcome valid now (.ok value) after

section

variable {limit fuel : Nat} {command : String} {got : List Char} {link next : Link}

theorem readReplyFrom_ok {line : String}
    (h : readReplyFrom command limit fuel got link = (.ok line, next)) : next.up = true := by
  induction fuel generalizing got link with
  | zero => simp [readReplyFrom, giveUp] at h
  | succ fuel ih =>
      rw [readReplyFrom] at h
      split at h
      · rename_i hr
        simp only at h
        split at h
        · obtain rfl := (Prod.mk.inj h).2
          exact (Link.receive_data hr).2.1
        · exact ih h
      · simp at h
      · simp [giveUp] at h
      · simp [giveUp] at h

theorem isConnection_of_receive {size : Nat} {failure : Failure}
    (h : link.receive size = (.failed failure, next)) : failure.isConnection = true := by
  cases Link.receives_of_eq h <;> rfl

/-- Whatever keeps a reply from coming, the link is down behind it. -/
theorem readReplyFrom_error {failure : Failure}
    (h : readReplyFrom command limit fuel got link = (.error failure, next)) :
    failure.isConnection = true ∧ next.up = false := by
  have hgiveUp {got : List Char} {link : Link}
      (h : giveUp command limit got link = (.error failure, next)) :
      failure.isConnection = true ∧ next.up = false := by
    obtain ⟨hfailure, rfl⟩ := Prod.mk.inj h
    obtain rfl := Except.error.inj hfailure
    exact ⟨rfl, rfl⟩
  induction fuel generalizing got link with
  | zero => exact hgiveUp h
  | succ fuel ih =>
      rw [readReplyFrom] at h
      split at h
      · simp only at h
        split at h
        · simp at h
        · exact ih h
      · rename_i hr
        obtain ⟨hfailure, rfl⟩ := Prod.mk.inj h
        obtain rfl := Except.error.inj hfailure
        exact ⟨isConnection_of_receive hr, Link.receive_failed hr⟩
      · exact hgiveUp h
      · exact hgiveUp h

theorem readReply_ok {line : String} (h : readReply command limit link = (.ok line, next)) :
    next.up = true := by
  rw [readReply] at h
  split at h
  · simp [giveUp] at h
  · exact readReplyFrom_ok h

theorem readReply_error {failure : Failure}
    (h : readReply command limit link = (.error failure, next)) :
    failure.isConnection = true ∧ next.up = false := by
  rw [readReply] at h
  split at h
  · rw [← readReplyFrom] at h
    exact readReplyFrom_error h
  · exact readReplyFrom_error h

theorem sendDashboard_ok {b after : Bench} (h : b.sendDashboard command = (.ok (), after)) :
    b.dashboard.up = true := by
  rw [Bench.sendDashboard] at h
  split at h
  · rename_i hsend
    exact (Link.send_ok hsend).1
  · simp at h

/-- A send that fails on a link that was down has done nothing to it. -/
theorem sendDashboard_error {b after : Bench} {failure : Failure}
    (h : b.sendDashboard command = (.error failure, after)) :
    (∃ text, failure = .connection (.reported text)) ∧ after.dashboard.up = false ∧
      (b.dashboard.up = false → after = b) := by
  rw [Bench.sendDashboard] at h
  split at h
  · simp at h
  · rename_i failure' dashboard hsend
    obtain ⟨hfailure, rfl⟩ := Prod.mk.inj h
    obtain rfl := Except.error.inj hfailure
    refine ⟨?_, (Link.send_error hsend).1, fun hdown => ?_⟩
    · rw [Link.send] at hsend
      split at hsend
      · split at hsend
        · exact ⟨_, (Except.error.inj (Prod.mk.inj hsend).1).symm⟩
        · simp at hsend
      · exact ⟨_, (Except.error.inj (Prod.mk.inj hsend).1).symm⟩
    · rw [Link.send, if_neg (by simp [hdown])] at hsend
      rw [← (Prod.mk.inj hsend).2]

end

theorem check_error {command : Command} {failure : Failure} (h : command.check = .error failure) :
    ∃ fault, failure = .argument fault := by
  rw [Command.check] at h
  split at h
  · exact ⟨_, (Except.error.inj h).symm⟩
  · cases h

theorem call_outcome (limit : Nat) (command : Command) (b : Bench) :
    Outcome (command.check = .ok ()) b (call limit command b).1 (call limit command b).2 := by
  rw [call]
  split
  · rename_i failure hcheck
    obtain ⟨fault, rfl⟩ := check_error hcheck
    exact .refused fault (by simp [hcheck])
  · split
    · rename_i hsend
      obtain ⟨⟨text, rfl⟩, hdown, hsame⟩ := sendDashboard_error hsend
      cases hup : b.dashboard.up with
      | false =>
          obtain rfl := hsame hup
          exact .offline text hup
      | true => exact .lost rfl hup hdown
    · rename_i hsend
      have hup := sendDashboard_ok hsend
      split
      · rename_i hread
        obtain ⟨hconnection, hdown⟩ := readReply_error hread
        exact .lost hconnection hup hdown
      · rename_i line dashboard hread
        have hstays := readReply_ok hread
        rw [accept]
        cases hparse : Reply.parse line with
        | error failure =>
            obtain ⟨fault, line, rfl⟩ := malforms_parse line failure hparse
            exact .malformed fault line hup hstays
        | ok reply =>
            show Outcome _ _ (if reply.accepted then _ else _) _
            split
            · exact .answered reply hup hstays
            · exact .rejected reply.status command.text hup hstays

/-- To read the reply of an exchange is one more way for it to fail, and no other. -/
theorem Outcome.reading {α β : Type} {valid : Prop} {now after : Bench} {reply : α}
    (h : Outcome valid now (.ok reply : Except Failure α) after) {read : Except Failure β}
    (hread : Malforms read) : Outcome valid now read after := by
  cases h with
  | answered _ was up =>
      cases hresult : read with
      | ok value => exact .answered value was up
      | error failure =>
          obtain ⟨fault, line, rfl⟩ := hread failure hresult
          exact .malformed fault line was up

theorem Outcome.failing {α β : Type} {valid : Prop} {now after : Bench} {failure : Failure}
    (h : Outcome valid now (.error failure : Except Failure α) after) :
    Outcome valid now (.error failure : Except Failure β) after := by
  cases h with
  | refused fault invalid => exact .refused fault invalid
  | offline text down => exact .offline text down
  | lost isConnection was down => exact .lost isConnection was down
  | rejected status command was up => exact .rejected status command was up
  | malformed fault line was up => exact .malformed fault line was up

/-! ## Queries -/

/-- Everything that can be asked of the dashboard. -/
inductive Query where
  | request (request : Request)
  | call (command : Command)
  | faultTable
  deriving Repr

/-- What a query gives back. -/
inductive Found where
  | answer (answer : Answer)
  | reply (reply : Reply)
  | table (table : Fault.Table)
  deriving DecidableEq, Repr

namespace Query

def command : Query → Except Failure Command
  | .request r => r.command
  | .call c => .ok c
  | .faultTable => .ok (.bare "GetErrorID")

/-- Whether the arguments of a query are accepted. -/
def IsValid (query : Query) : Prop :=
  ∃ command, query.command = .ok command ∧ command.check = .ok ()

def run (limit : Nat) (b : Bench) : Query → Except Failure Found × Bench
  | .request r =>
    let (result, after) := r.perform limit b
    (result.map .answer, after)
  | .call c =>
    let (result, after) := Dashboard.call limit c b
    (result.map .reply, after)
  | .faultTable =>
    let (result, after) := Dashboard.faultTable limit b
    (result.map .table, after)

end Query

theorem Query.isValid_iff (query : Query) {command : Command} (h : query.command = .ok command) :
    query.IsValid ↔ command.check = .ok () := by
  rw [IsValid]
  rw [h]
  exact ⟨fun ⟨_, hsame, hcheck⟩ => Except.ok.inj hsame ▸ hcheck, fun hcheck => ⟨_, rfl, hcheck⟩⟩

theorem Outcome.map {α β : Type} {valid : Prop} {now after : Bench} {result : Except Failure α}
    (h : Outcome valid now result after) (f : α → β) : Outcome valid now (result.map f) after := by
  cases h with
  | refused fault invalid => exact .refused fault invalid
  | offline text down => exact .offline text down
  | lost isConnection was down => exact .lost isConnection was down
  | rejected status command was up => exact .rejected status command was up
  | malformed fault line was up => exact .malformed fault line was up
  | answered value was up => exact .answered (f value) was up

theorem command_error {request : Request} {failure : Failure}
    (h : request.command = .error failure) : ∃ fault, failure = .argument fault := by
  have hratio {name : String} {least value : Nat} (h : ratio name least value = .error failure) :
      ∃ fault, failure = .argument fault := by
    rw [ratio] at h
    split at h
    · cases h
    · exact ⟨_, (Except.error.inj h).symm⟩
  cases request with
  | speedFactor | accJ | accL | speedJ | speedL | blend => exact hratio h
  | limitHeight z =>
      rw [Request.command] at h
      split at h
      · cases h
      · exact ⟨_, (Except.error.inj h).symm⟩
  | runScript name =>
      rw [Request.command] at h
      split at h
      · exact ⟨_, (Except.error.inj h).symm⟩
      · cases h
  | _ => cases h

theorem perform_outcome (limit : Nat) (request : Request) (b : Bench) :
    Outcome (Query.request request).IsValid b (request.perform limit b).1
      (request.perform limit b).2 := by
  rw [Request.perform]
  cases hcommand : request.command with
  | error failure =>
      obtain ⟨fault, rfl⟩ := command_error hcommand
      refine .refused fault fun ⟨command, hvalid, _⟩ => ?_
      rw [Query.command, hcommand] at hvalid
      cases hvalid
  | ok command =>
      have hcall := call_outcome limit command b
      rw [Query.isValid_iff (.request request) hcommand]
      simp only
      split
      · rename_i reply after heq
        rw [heq] at hcall
        exact hcall.reading (malforms_read request reply)
      · rename_i failure after heq
        rw [heq] at hcall
        exact hcall.failing

theorem faultTable_outcome (limit : Nat) (b : Bench) :
    Outcome Query.faultTable.IsValid b (faultTable limit b).1 (faultTable limit b).2 := by
  have hcall := call_outcome limit (.bare "GetErrorID") b
  rw [Query.isValid_iff .faultTable rfl]
  rw [faultTable]
  split
  · rename_i reply after heq
    rw [heq] at hcall
    exact hcall.reading (malforms_readTable reply)
  · rename_i failure after heq
    rw [heq] at hcall
    exact hcall.failing

theorem Query.outcome (limit : Nat) (query : Query) (b : Bench) :
    Outcome query.IsValid b (query.run limit b).1 (query.run limit b).2 := by
  cases query with
  | request request => exact (perform_outcome limit request b).map _
  | faultTable => exact (faultTable_outcome limit b).map _
  | call command =>
      have hcall := (call_outcome limit command b).map Found.reply
      rw [Query.isValid_iff (.call command) rfl]
      exact hcall

/-! ## Nobody dials

If a query dialed, it would matter to it how dials end, and it would use up one of
those that are laid down. -/

/-- The link with other ends laid down for its next dials, and for those after. -/
def rig (dials : List Dial) (fallback : Fallback) (link : Link) : Link :=
  { link with dials := dials ++ link.dials, fallback }

def rigged (dials : List Dial) (fallback : Fallback) (b : Bench) : Bench :=
  { b with dashboard := rig dials fallback b.dashboard }

section

variable (dials : List Dial) (fallback : Fallback)

theorem send_rig (text : String) (link : Link) :
    (rig dials fallback link).send text =
      ((link.send text).1, rig dials fallback (link.send text).2) := by
  unfold Link.send rig
  simp only
  split
  · split <;> rfl
  · rfl

theorem receive_rig (size : Nat) (link : Link) :
    (rig dials fallback link).receive size =
      ((link.receive size).1, rig dials fallback (link.receive size).2) := by
  unfold Link.receive rig
  simp only
  split
  · split
    · rfl
    · split <;> rfl
    all_goals rfl
  · rfl

theorem suffer_rigged (b : Bench) (stimulus : Stimulus) :
    (rigged dials fallback b).suffer stimulus = rigged dials fallback (b.suffer stimulus) := by
  cases stimulus with
  | frame bytes => rfl
  | drop port => cases port <;> rfl
  | refuse port text =>
      cases port with
      | dashboard =>
          simp only [Bench.suffer, Bench.update, Link.expect, rigged, rig, List.append_assoc]
      | motion | realtime => rfl

theorem sufferAll_rigged (stimuli : List Stimulus) (b : Bench) :
    stimuli.foldl Bench.suffer (rigged dials fallback b) =
      rigged dials fallback (stimuli.foldl Bench.suffer b) := by
  induction stimuli generalizing b with
  | nil => rfl
  | cons stimulus rest ih =>
      rw [List.foldl_cons, List.foldl_cons, suffer_rigged, ih]

theorem heardDashboard_rigged (b : Bench) (command : String) :
    (rigged dials fallback b).heardDashboard command =
      rigged dials fallback (b.heardDashboard command) := by
  have hall := sufferAll_rigged dials fallback (b.controller.answer command).2.onDashboard
  have hcontroller : (rigged dials fallback b).controller = b.controller := rfl
  unfold Bench.heardDashboard
  simp only [hcontroller]
  split
  · rename_i text _
    exact hall (({ b with controller := (b.controller.answer command).2 } : Bench).update .dashboard
      (Link.deliver (.bytes (Text.Utf8.encode text))))
  · exact hall { b with controller := (b.controller.answer command).2 }

theorem sendDashboard_rigged (command : String) (b : Bench) :
    (rigged dials fallback b).sendDashboard command =
      ((b.sendDashboard command).1, rigged dials fallback (b.sendDashboard command).2) := by
  have hsend : (rigged dials fallback b).dashboard.send command =
      ((b.dashboard.send command).1, rig dials fallback (b.dashboard.send command).2) :=
    send_rig dials fallback command b.dashboard
  unfold Bench.sendDashboard
  rw [hsend]
  cases hresult : b.dashboard.send command with
  | mk result dashboard =>
      cases result with
      | ok => exact congrArg (Prod.mk _) (heardDashboard_rigged dials fallback { b with dashboard } _)
      | error failure => rfl

theorem readReplyFrom_rig (command : String) (limit fuel : Nat) (got : List Char) (link : Link) :
    readReplyFrom command limit fuel got (rig dials fallback link) =
      ((readReplyFrom command limit fuel got link).1,
        rig dials fallback (readReplyFrom command limit fuel got link).2) := by
  induction fuel generalizing got link with
  | zero => rfl
  | succ fuel ih =>
      rw [readReplyFrom, readReplyFrom, receive_rig]
      cases hreceive : link.receive pieceSize with
      | mk result next =>
          cases result with
          | data bytes =>
              simp only
              split
              · rfl
              · exact ih _ _
          | quiet | failed | waiting => rfl

theorem readReply_rig (command : String) (limit : Nat) (link : Link) :
    readReply command limit (rig dials fallback link) =
      ((readReply command limit link).1, rig dials fallback (readReply command limit link).2) := by
  unfold readReply
  split
  · rfl
  · exact readReplyFrom_rig dials fallback command limit _ _ _

theorem call_rigged (limit : Nat) (command : Command) (b : Bench) :
    call limit command (rigged dials fallback b) =
      ((call limit command b).1, rigged dials fallback (call limit command b).2) := by
  unfold call
  rw [sendDashboard_rigged]
  cases command.check with
  | error failure => rfl
  | ok =>
      cases b.sendDashboard command.text with
      | mk sent after =>
          cases sent with
          | error failure => rfl
          | ok =>
              simp only
              rw [show (rigged dials fallback after).dashboard =
                rig dials fallback after.dashboard from rfl, readReply_rig]
              cases readReply command.text limit after.dashboard with
              | mk result dashboard => cases result <;> rfl

theorem Query.run_rigged (limit : Nat) (query : Query) (b : Bench) :
    query.run limit (rigged dials fallback b) =
      ((query.run limit b).1, rigged dials fallback (query.run limit b).2) := by
  cases query with
  | request request =>
      simp only [Query.run, Request.perform]
      cases request.command with
      | error failure => rfl
      | ok command =>
          simp only [call_rigged]
          cases Dashboard.call limit command b with
          | mk result after => cases result <;> rfl
  | call command => simp only [Query.run, call_rigged]
  | faultTable =>
      simp only [Query.run, Dashboard.faultTable, call_rigged]
      cases Dashboard.call limit (.bare "GetErrorID") b with
      | mk result after => cases result <;> rfl

end

/-! ## Whole runs -/

/-- Something that happens to the dashboard. -/
inductive Act where
  | ask (query : Query)
  | connect
  | disconnect
  /-- The other side does something to the link, but does not bring it up. -/
  | sway (link : Link)
  /-- The controller will react in another way. -/
  | turn (controller : Controller)
  deriving Repr

namespace Act

def apply (limit : Nat) (b : Bench) : Act → Bench
  | ask query => (query.run limit b).2
  | .connect => (Dashboard.connect b).2
  | .disconnect => Dashboard.disconnect b
  | sway link => { b with dashboard := { link with up := b.dashboard.up && link.up } }
  | turn controller => { b with controller }

/-- Whether the act is a connect that is accepted. -/
def reopens (b : Bench) : Act → Bool
  | .connect => (Dashboard.connect b).1.isOk
  | _ => false

end Act

def course (limit : Nat) (b : Bench) (acts : List Act) : Bench :=
  acts.foldl (Act.apply limit) b

/-- Whether a connect is accepted in the course of some acts. -/
def reopened (limit : Nat) (b : Bench) : List Act → Bool
  | [] => false
  | act :: rest => act.reopens b || reopened limit (act.apply limit b) rest

/-- A use of a link that is down leaves everything as it was. -/
theorem Outcome.unused {α : Type} {valid : Prop} {now after : Bench} {result : Except Failure α}
    (h : Outcome valid now result after) (hdown : now.dashboard.up = false) :
    after = now ∧ (∀ value, result ≠ .ok value) ∧
      (valid → ∃ fault, result = .error (.connection fault)) := by
  have hnever {P : Prop} (was : now.dashboard.up = true) : P := by
    rw [hdown] at was
    cases was
  cases h with
  | refused fault invalid => exact ⟨rfl, fun _ => nofun, fun hvalid => absurd hvalid invalid⟩
  | offline text down => exact ⟨rfl, fun _ => nofun, fun _ => ⟨_, rfl⟩⟩
  | lost _ was | rejected _ _ was | malformed _ _ was | answered _ was => exact hnever was

theorem connect_down {b : Bench} (hclosed : Act.reopens b .connect = false) :
    (connect b).2.dashboard.up = false := by
  have hup := b.dashboard.up_dial
  rw [Act.reopens] at hclosed
  unfold connect at hclosed ⊢
  split at hclosed
  · cases hclosed
  all_goals
    rename_i heq
    rw [heq] at hup
    refine Bool.eq_false_iff.2 fun hc => ?_
    cases hup.1 hc

/-- A link that is down is left down by everything but an accepted connect. -/
theorem apply_down (limit : Nat) {b : Bench} (hdown : b.dashboard.up = false) {act : Act}
    (hclosed : act.reopens b = false) : (act.apply limit b).dashboard.up = false := by
  cases act with
  | ask query =>
      show (query.run limit b).2.dashboard.up = false
      rw [((query.outcome limit b).unused hdown).1, hdown]
  | connect => exact connect_down hclosed
  | disconnect => rfl
  | sway link =>
      show (b.dashboard.up && link.up) = false
      rw [hdown, Bool.false_and]
  | turn controller => exact hdown

theorem course_down (limit : Nat) {b : Bench} (hdown : b.dashboard.up = false) {acts : List Act}
    (hclosed : reopened limit b acts = false) : (course limit b acts).dashboard.up = false := by
  induction acts generalizing b with
  | nil => exact hdown
  | cons act rest ih =>
      obtain ⟨hact, hrest⟩ := Bool.or_eq_false_iff.1 hclosed
      exact ih (apply_down limit hdown hact) hrest

/-- The failure of a query says whether the link is down: it does so if the link is lost, and
otherwise the link is up as it was. -/
theorem Outcome.isConnection_iff {α : Type} {valid : Prop} {now after : Bench}
    {result : Except Failure α} (h : Outcome valid now result after)
    (hup : now.dashboard.up = true) :
    (∃ failure, result = .error failure ∧ failure.isConnection = true) ↔
      after.dashboard.up = false := by
  have hstays {failure : Failure} (hnot : failure.isConnection = false)
      (hafter : after.dashboard.up = true) :
      (∃ f, (.error failure : Except Failure α) = .error f ∧ f.isConnection = true) ↔
        after.dashboard.up = false := by
    refine ⟨fun ⟨f, hf, hc⟩ => ?_, fun hdown => ?_⟩
    · rw [← Except.error.inj hf, hnot] at hc
      cases hc
    · rw [hafter] at hdown
      cases hdown
  cases h with
  | refused fault => exact hstays rfl hup
  | offline text down => exact ⟨fun _ => down, fun _ => ⟨_, rfl, rfl⟩⟩
  | lost isConnection _ down => exact ⟨fun _ => down, fun _ => ⟨_, rfl, isConnection⟩⟩
  | rejected status command _ up => exact hstays rfl up
  | malformed fault line _ up => exact hstays rfl up
  | answered value _ up =>
      refine ⟨fun ⟨_, h, _⟩ => (nomatch h), fun hdown => ?_⟩
      rw [up] at hdown
      cases hdown

/-- A failure is one of the link, a no of the controller, a reply that says nothing, or a
refused argument, which leaves everything as it was. -/
theorem Outcome.kinds {α : Type} {valid : Prop} {now after : Bench} {failure : Failure}
    (h : Outcome valid now (.error failure : Except Failure α) after) :
    (failure.isConnection = true ∧ after.dashboard.up = false) ∨
      (∃ status command, failure = .rejected status command) ∨
      (∃ fault line, failure = .malformed fault line) ∨
      ∃ fault, failure = .argument fault ∧ after = now := by
  cases h with
  | refused fault => exact .inr (.inr (.inr ⟨fault, rfl, rfl⟩))
  | offline text down => exact .inl ⟨rfl, down⟩
  | lost isConnection _ down => exact .inl ⟨isConnection, down⟩
  | rejected status command => exact .inr (.inl ⟨status, command, rfl⟩)
  | malformed fault line => exact .inr (.inr (.inl ⟨fault, line, rfl⟩))

/-- A query tells by its failure whether it left the link down, and a link that is down is
neither used nor brought up by any query: between a failure of that kind and the next
accepted connect nothing is read, whatever the controller may still send. -/
theorem failure_tells_link (limit : Nat) (b : Bench) (acts : List Act) :
    let now := course limit b acts
    (b.dashboard.up = false → reopened limit b acts = false → now.dashboard.up = false) ∧
    ∀ query : Query,
      let result := (query.run limit now).1
      let after := (query.run limit now).2
      (now.dashboard.up = true →
        ((∃ failure, result = .error failure ∧ failure.isConnection = true) ↔
          after.dashboard.up = false)) ∧
      (∀ failure, result = .error failure →
        failure.isConnection = true ∨ (∃ status command, failure = .rejected status command) ∨
          (∃ fault line, failure = .malformed fault line) ∨
          ∃ fault, failure = .argument fault ∧ after = now) ∧
      (now.dashboard.up = false → query.IsValid →
        (∃ fault, result = .error (.connection fault)) ∧ after = now) ∧
      (∀ failure, result = .error failure → failure.isConnection = true →
        ∀ more, reopened limit after more = false → ∀ later : Query, ∀ found,
          (later.run limit (course limit after more)).1 ≠ .ok found) ∧
      ∀ dials fallback,
        query.run limit (rigged dials fallback now) = (result, rigged dials fallback after) := by
  intro now
  refine ⟨fun hdown hclosed => course_down limit hdown hclosed, fun query => ?_⟩
  intro result after
  have hend : Outcome query.IsValid now result after := query.outcome limit now
  refine ⟨hend.isConnection_iff, fun failure hfailure => ?_, fun hdown hvalid => ?_,
    fun failure hfailure hconnection more hclosed later found => ?_,
    fun dials fallback => query.run_rigged dials fallback limit now⟩
  · rw [hfailure] at hend
    exact hend.kinds.imp_left And.left
  · obtain ⟨hsame, -, hoffline⟩ := hend.unused hdown
    exact ⟨hoffline hvalid, hsame⟩
  · rw [hfailure] at hend
    have hdown : after.dashboard.up = false := by
      rcases hend.kinds with ⟨-, hdown⟩ | ⟨_, _, rfl⟩ | ⟨_, _, rfl⟩ | ⟨_, rfl, -⟩
      · exact hdown
      all_goals cases hconnection
    have hlater := later.outcome limit (course limit after more)
    exact (hlater.unused (course_down limit hdown hclosed)).2.1 found

/-- A reply that comes when its own query has given up on it is nobody's. -/
theorem failure_tells_link_late_reply :
    let config := Config.forAddress "controller"
    let link := { Link.fresh "down" true with up := true, inbox := [.quiet] }
    let b := { config.unreachable with dashboard := link }
    let late := link.deliver (.bytes (Text.Utf8.encode (Reply.written 0 "5" "RobotMode()")))
    let acts := [Act.ask (.request .robotMode), .sway late]
    let later := (Query.request .errorIds).run 500 (course 500 b acts)
    (course 500 b [.ask (.request .robotMode)]).dashboard.up = false ∧
      (∃ fault, later.1 = .error (.connection fault)) ∧ later.2 = course 500 b acts := by
  intro config link b late acts later
  have hdown : (course 500 b [.ask (.request .robotMode)]).dashboard.up = false := by
    decide +kernel
  obtain ⟨hstays, hquery⟩ := failure_tells_link 500
    (course 500 b [.ask (.request .robotMode)]) [.sway late]
  obtain ⟨-, -, hoffline, -⟩ := hquery (.request .errorIds)
  exact ⟨hdown, hoffline (hstays hdown rfl) ⟨.bare "GetErrorID", rfl, rfl⟩⟩

end ArmLink.Dashboard
