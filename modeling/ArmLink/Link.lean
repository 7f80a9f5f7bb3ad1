import ArmLink.Failure

/-!
# Links

A link carries bytes between the host and one port of the controller. What the
other side does is laid down in the link itself: what will arrive, how the next
dials end, which sends will fail. A link that is down refuses to be used, and
every failure but a silent receive takes it down.

A dial or a receive may have to wait for the other side. It is then answered with
`waiting`, which changes nothing, and is tried again when something has changed.
-/

namespace ArmLink

/-- Something that arrives on a link. -/
inductive Arrival where
  | bytes (data : List UInt8)
  /-- Nothing, for as long as anyone would wait. -/
  | quiet
  /-- The loss of the connection. -/
  | broken (text : String)
  /-- An error of the operating system. -/
  | faulty (text : String)
  deriving DecidableEq, Repr

/-- How many bytes an arrival brings. -/
def Arrival.size : Arrival → Nat
  | bytes data => data.length
  | _ => 0

inductive Dial where
  | accepted
  | refused (text : String)
  deriving DecidableEq, Repr

/-- How a dial ends for which nothing is laid down. -/
inductive Fallback where
  | accept
  | refuse (text : String)
  /-- It stays unanswered. -/
  | hang
  deriving DecidableEq, Repr

/-- A link to one port of the controller. -/
structure Link where
  up : Bool
  inbox : List Arrival
  dials : List Dial
  fallback : Fallback
  sendFaults : List String
  /-- The texts sent, in order. -/
  sent : List String
  /-- How many dials have been answered. Those refused for want of anything laid down do not
  count. -/
  tries : Nat
  /-- How often the link was taken down by the host. -/
  cuts : Nat
  /-- What the link reports when it is used while it is down. -/
  offline : String
  /-- Whether a receive waits when nothing has arrived; otherwise it finds silence. -/
  patient : Bool
  deriving DecidableEq, Repr

inductive Received where
  | data (bytes : List UInt8)
  | quiet
  | failed (failure : Failure)
  | waiting
  deriving DecidableEq, Repr

inductive Dialed where
  | connected
  | failed (failure : Failure)
  | waiting
  deriving DecidableEq, Repr

namespace Link

/-- A failure that a link reports in words of its own. -/
def fault (text : String) : Failure := .connection (.reported text)

/-- A link to nowhere in particular, on which nothing has happened. -/
def fresh (offline : String) (patient : Bool) : Link :=
  { up := false, inbox := [], dials := [], fallback := .accept, sendFaults := [], sent := []
    tries := 0, cuts := 0, offline, patient }

/-- A link to a peer that no dial reaches. -/
def unreachable (peer : String) : Link :=
  { fresh ("Not connected to " ++ peer) true with
    fallback := .refuse
      ("Failed to connect to " ++ peer ++ ": Network is unreachable (os error 101)") }

/-- How many receives the inbox can feed: each takes an arrival or some bytes of one. -/
def load (link : Link) : Nat :=
  link.inbox.foldr (fun arrival n => arrival.size + n + 1) 0

def close (link : Link) : Link :=
  { link with up := false, cuts := link.cuts + 1 }

/-- Dials. A link that is not answered is left down. -/
def dial (link : Link) : Dialed × Link :=
  match link.dials with
  | .accepted :: rest =>
    (.connected, { link with up := true, dials := rest, tries := link.tries + 1 })
  | .refused text :: rest =>
    (.failed (fault text), { link with up := false, dials := rest, tries := link.tries + 1 })
  | [] =>
    match link.fallback with
    | .accept => (.connected, { link with up := true, tries := link.tries + 1 })
    | .refuse text => (.failed (fault text), { link with up := false })
    | .hang => (.waiting, { link with up := false })

def send (text : String) (link : Link) : Except Failure Unit × Link :=
  if link.up then
    match link.sendFaults with
    | fault :: rest => (.error (Link.fault fault), { link with up := false, sendFaults := rest })
    | [] => (.ok (), { link with sent := link.sent ++ [text] })
  else (.error (fault link.offline), link)

/-- Receives at most `size` bytes. Bytes that do not fit stay at the front. -/
def receive (size : Nat) (link : Link) : Received × Link :=
  if link.up then
    match link.inbox with
    | [] => (if link.patient then .waiting else .quiet, link)
    | .bytes data :: rest =>
      if data.length ≤ size then (.data data, { link with inbox := rest })
      else (.data (data.take size), { link with inbox := .bytes (data.drop size) :: rest })
    | .quiet :: rest => (.quiet, { link with inbox := rest })
    | .broken text :: rest => (.failed (fault text), { link with up := false, inbox := rest })
    | .faulty text :: rest => (.failed (.io text), { link with up := false, inbox := rest })
  else (.failed (fault link.offline), link)

/-- Reads at most `size` bytes. No bytes at all are there at once, whether the link is up or not. -/
def read (size : Nat) (link : Link) : Received × Link :=
  if size = 0 then (.data [], link) else link.receive size

/-- What gathering a block of bytes came to. -/
inductive Gathered where
  /-- The block, which is short when silence cut it off. -/
  | block (bytes : List UInt8)
  | quiet
  /-- The link failed when these bytes had come, and nobody gets them. -/
  | failed (failure : Failure) (got : List UInt8)
  /-- More has to arrive first. -/
  | waiting (got : List UInt8)
  deriving DecidableEq, Repr

/-- The bytes that have come. -/
def Gathered.got : Gathered → List UInt8
  | block bytes => bytes
  | quiet => []
  | failed _ got => got
  | waiting got => got

/-- What silence makes of the bytes so far. -/
def settled (got : List UInt8) : Gathered :=
  if got = [] then .quiet else .block got

/-- Receives until `size` bytes are there or nothing more comes. -/
def gatherFrom (size : Nat) : Nat → List UInt8 → Link → Gathered × Link
  | 0, got, link => (settled got, link)
  | fuel + 1, got, link =>
    if size ≤ got.length then (settled got, link)
    else
      match link.receive (size - got.length) with
      | (.data bytes, next) => gatherFrom size fuel (got ++ bytes) next
      | (.quiet, next) => (settled got, next)
      | (.failed failure, next) => (.failed failure got, next)
      | (.waiting, next) => (.waiting got, next)

/-- Gathers a block of `size` bytes within a time limit in milliseconds. Receiving takes no time,
so only a limit of zero is ever passed. Every receive but the last takes one arrival off the inbox,
and one more receive may be needed to see that nothing is left. -/
def gather (size limit : Nat) (link : Link) : Gathered × Link :=
  if limit = 0 then (.quiet, link) else gatherFrom size (link.inbox.length + 2) [] link

def deliver (arrival : Arrival) (link : Link) : Link :=
  { link with inbox := link.inbox ++ [arrival] }

/-- Lays down how one more dial ends. -/
def expect (dial : Dial) (link : Link) : Link :=
  { link with dials := link.dials ++ [dial] }

/-- Lays down that one more send fails. -/
def failSend (text : String) (link : Link) : Link :=
  { link with sendFaults := link.sendFaults ++ [text] }

@[simp] theorem up_close (link : Link) : link.close.up = false := rfl

/-- Only a link that is up sends, and it sends the text once. -/
theorem send_ok {text : String} {link next : Link} (h : link.send text = (.ok (), next)) :
    link.up = true ∧ next = { link with sent := link.sent ++ [text] } := by
  unfold send at h
  split at h
  · rename_i hup
    split at h
    · simp at h
    · exact ⟨hup, (Prod.mk.inj h).2.symm⟩
  · simp at h

/-- A send that fails leaves the link down and has sent nothing. -/
theorem send_error {text : String} {link next : Link} {f : Failure}
    (h : link.send text = (.error f, next)) : next.up = false ∧ next.sent = link.sent := by
  unfold send at h
  split at h
  · split at h
    · obtain rfl := (Prod.mk.inj h).2
      exact ⟨rfl, rfl⟩
    · simp at h
  · rename_i hup
    obtain rfl := (Prod.mk.inj h).2
    exact ⟨by simpa using hup, rfl⟩

/-- All that a receive of at most `size` bytes can come to. -/
inductive Receives (size : Nat) (link : Link) : Received → Link → Prop where
  | offline (down : link.up = false) : Receives size link (.failed (fault link.offline)) link
  | waiting (up : link.up = true) (inbox : link.inbox = []) (patient : link.patient = true) :
      Receives size link .waiting link
  | silent (up : link.up = true) (inbox : link.inbox = []) (patient : link.patient = false) :
      Receives size link .quiet link
  | whole {data : List UInt8} {rest : List Arrival} (up : link.up = true)
      (inbox : link.inbox = .bytes data :: rest) (fits : data.length ≤ size) :
      Receives size link (.data data) { link with inbox := rest }
  | part {data : List UInt8} {rest : List Arrival} (up : link.up = true)
      (inbox : link.inbox = .bytes data :: rest) (long : size < data.length) :
      Receives size link (.data (data.take size))
        { link with inbox := .bytes (data.drop size) :: rest }
  | quiet {rest : List Arrival} (up : link.up = true) (inbox : link.inbox = .quiet :: rest) :
      Receives size link .quiet { link with inbox := rest }
  | broken {text : String} {rest : List Arrival} (up : link.up = true)
      (inbox : link.inbox = .broken text :: rest) :
      Receives size link (.failed (fault text)) { link with up := false, inbox := rest }
  | faulty {text : String} {rest : List Arrival} (up : link.up = true)
      (inbox : link.inbox = .faulty text :: rest) :
      Receives size link (.failed (.io text)) { link with up := false, inbox := rest }

theorem receives (size : Nat) (link : Link) :
    Receives size link (link.receive size).1 (link.receive size).2 := by
  unfold receive
  split
  · rename_i up
    split
    · rename_i inbox
      cases patient : link.patient with
      | false => exact .silent up inbox patient
      | true => exact .waiting up inbox patient
    · rename_i inbox
      split
      · rename_i fits
        exact .whole up inbox fits
      · rename_i long
        exact .part up inbox (Nat.lt_of_not_le long)
    · rename_i inbox
      exact .quiet up inbox
    · rename_i inbox
      exact .broken up inbox
    · rename_i inbox
      exact .faulty up inbox
  · rename_i down
    exact .offline (Bool.eq_false_iff.2 down)

theorem receives_of_eq {size : Nat} {link next : Link} {result : Received}
    (h : link.receive size = (result, next)) : Receives size link result next := by
  have hreceives := receives size link
  rwa [h] at hreceives

/-- A receive that fails leaves the link down. -/
theorem receive_failed {size : Nat} {link next : Link} {f : Failure}
    (h : link.receive size = (.failed f, next)) : next.up = false := by
  cases receives_of_eq h with
  | offline down => exact down
  | broken | faulty => rfl

/-- Only a link that is up hands over bytes, never more than were asked for. -/
theorem receive_data {size : Nat} {link next : Link} {bytes : List UInt8}
    (h : link.receive size = (.data bytes, next)) :
    link.up = true ∧ next.up = true ∧ bytes.length ≤ size := by
  cases receives_of_eq h with
  | whole up _ fits => exact ⟨up, up, fits⟩
  | part up => exact ⟨up, up, List.length_take_le _ _⟩

/-- A receive that hands over bytes leaves less to receive. -/
theorem load_receive {size : Nat} {link next : Link} {bytes : List UInt8} (hsize : 0 < size)
    (h : link.receive size = (.data bytes, next)) : next.load < link.load := by
  cases receives_of_eq h with
  | whole _ inbox =>
      simp only [load, inbox, List.foldr_cons]
      omega
  | part _ inbox =>
      simp only [load, inbox, List.foldr_cons, Arrival.size, List.length_drop]
      omega

/-- Silence leaves the link up. -/
theorem receive_quiet {size : Nat} {link next : Link}
    (h : link.receive size = (.quiet, next)) : link.up = true ∧ next.up = true := by
  cases receives_of_eq h with
  | silent up | quiet up => exact ⟨up, up⟩

/-- A link is up behind a dial exactly when the dial was accepted. -/
theorem up_dial (link : Link) : link.dial.2.up = true ↔ link.dial.1 = .connected := by
  unfold dial
  split
  · simp
  · simp
  · split <;> simp

end Link

end ArmLink
