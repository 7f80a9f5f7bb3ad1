import ArmLink.Proofs.Disconnection
import ArmLink.Proofs.WholeCharacters
import ArmLink.Proofs.WrittenReply

/-!
# Requests and replies stay in step

A controller answers each command with one reply, in pieces of any size and with
padding behind it. The host stops reading at the end of the reply and drops what
came behind it in the same piece; the padding that came later is still there when
the next reply is read. So what one exchange leaves to the next is padding, and
nothing else, as long as no piece holds bytes of two replies. `Ready` says this,
and one exchange takes it to the next. The answer lies on the link before its
command is sent. That is no loss: a send does not look at what has arrived, so by
`sendDashboard_arrives` it might as well come behind the command.

Within an exchange the pieces do not matter. `readReplyFrom_of_stream` looks at
the bytes on the link as one text and finds the reply in front of the first
terminator, wherever the pieces end.
-/

namespace ArmLink

open ArmLink.Text (Utf8.decodeLossy Utf8.encode)

/-! ## ASCII on the wire -/

/-- The characters of bytes that are ASCII. -/
def asciiChars (bytes : List UInt8) : List Char :=
  bytes.map fun b => Char.ofNat b.toNat

theorem asciiChars_append (xs ys : List UInt8) :
    asciiChars (xs ++ ys) = asciiChars xs ++ asciiChars ys :=
  List.map_append

theorem utf8EncodeChar_ascii {c : Char} (h : c.toNat < 128) :
    String.utf8EncodeChar c = [UInt8.ofNat c.toNat] := by
  have hsize : c.utf8Size = 1 := by
    rw [Char.utf8Size]
    exact if_pos (Nat.le_of_lt_succ h)
  rw [String.utf8EncodeChar_eq_singleton hsize]
  rfl

theorem encode_asciiChars {bytes : List UInt8} (h : ∀ b ∈ bytes, b.toNat < 128) :
    Utf8.encode (String.ofList (asciiChars bytes)) = bytes := by
  rw [Utf8.encode, String.toList_ofList, asciiChars]
  induction bytes with
  | nil => rfl
  | cons b rest ih =>
      obtain ⟨hb, hrest⟩ := List.forall_mem_cons.1 h
      have hchar : (Char.ofNat b.toNat).toNat = b.toNat :=
        Text.Utf8.toNat_ofNat_of_valid (.inl (by omega))
      rw [List.map_cons, List.flatMap_cons, ih hrest, utf8EncodeChar_ascii (by omega), hchar,
        UInt8.ofNat_toNat, List.singleton_append]

theorem decodeLossy_ascii {bytes : List UInt8} (h : ∀ b ∈ bytes, b.toNat < 128) :
    (Utf8.decodeLossy bytes).toList = asciiChars bytes := by
  have hdecode := congrArg Utf8.decodeLossy (encode_asciiChars h)
  rw [Text.Utf8.decodeLossy_encode] at hdecode
  rw [← hdecode, String.toList_ofList]

/-- ASCII is encoded a byte a character, so the bytes and the characters say the same. -/
theorem encode_ascii {text : List Char} (h : ∀ c ∈ text, c.toNat < 128) :
    (∀ b ∈ text.flatMap String.utf8EncodeChar, b.toNat < 128) ∧
      asciiChars (text.flatMap String.utf8EncodeChar) = text := by
  induction text with
  | nil => exact ⟨fun _ hb => (nomatch hb), rfl⟩
  | cons c rest ih =>
      have hc : c.toNat < 128 := h c List.mem_cons_self
      obtain ⟨hbytes, hchars⟩ := ih fun d hd => h d (List.mem_cons_of_mem c hd)
      have hbyte : (UInt8.ofNat c.toNat).toNat = c.toNat := by
        rw [UInt8.toNat_ofNat']
        exact Nat.mod_eq_of_lt (by omega)
      rw [List.flatMap_cons, utf8EncodeChar_ascii hc]
      refine ⟨fun b hb => ?_, ?_⟩
      · rcases List.mem_cons.1 hb with rfl | hb
        · rw [hbyte]
          exact hc
        · exact hbytes b hb
      · rw [asciiChars_append, hchars]
        show Char.ofNat (UInt8.ofNat c.toNat).toNat :: rest = c :: rest
        rw [hbyte, Char.ofNat_toNat]

/-- Padding reads as padding, and no line ends in it. -/
theorem asciiChars_padding {bytes : List UInt8}
    (h : ∀ b ∈ bytes, b.toNat < 128 ∧ Reply.isPadding (Char.ofNat b.toNat) = true) :
    (∀ c ∈ asciiChars bytes, Reply.isPadding c = true) ∧ Reply.terminator ∉ asciiChars bytes := by
  have hall : ∀ c ∈ asciiChars bytes, Reply.isPadding c = true := by
    intro c hc
    obtain ⟨b, hb, rfl⟩ := List.mem_map.1 hc
    exact (h b hb).2
  exact ⟨hall, fun hc => absurd (hall _ hc) (by decide)⟩

/-! ## Pieces -/

/-- A send does not look at what has arrived. -/
theorem Link.send_arrived (link : Link) (text : String) (more : List Arrival) :
    ({ link with inbox := link.inbox ++ more } : Link).send text =
      ((link.send text).1,
        { (link.send text).2 with inbox := (link.send text).2.inbox ++ more }) := by
  unfold send
  simp only
  split
  · split <;> rfl
  · rfl

/-- A receive takes a piece off the front of the bytes that are there. -/
theorem Link.receive_piece {size : Nat} (hsize : 0 < size) {link : Link} (hup : link.up = true)
    {piece : List UInt8} {pieces : List (List UInt8)}
    (hinbox : link.inbox = (piece :: pieces).map .bytes) :
    ∃ (bytes : List UInt8) (left : List (List UInt8)), link.receive size =
        (.data bytes, { link with inbox := left.map .bytes }) ∧
      (piece :: pieces).flatten = bytes ++ left.flatten ∧
      ({ link with inbox := left.map .bytes } : Link).load < link.load := by
  rw [List.map_cons] at hinbox
  unfold receive load
  rw [if_pos hup, hinbox]
  simp only
  split
  · refine ⟨piece, pieces, rfl, rfl, ?_⟩
    simp only [List.foldr_cons]
    omega
  · rename_i hlong
    refine ⟨piece.take size, piece.drop size :: pieces, rfl, ?_, ?_⟩
    · rw [List.flatten_cons, List.flatten_cons, ← List.append_assoc, List.take_append_drop]
    · simp only [List.map_cons, List.foldr_cons, Arrival.size, List.length_drop]
      omega

namespace Dashboard

open ArmLink.Reply (terminator)

/-- What stands in front of the first terminator is found wherever the text is cut behind it. -/
theorem throughTerminator?_eq {text rest head tail : List Char} (hmem : terminator ∈ text)
    (hhead : terminator ∉ head) (hall : text ++ rest = head ++ terminator :: tail) :
    throughTerminator? text = some (head ++ [terminator]) ∧ ∃ more, more ++ rest = tail := by
  have htake {front back : List Char} (h : terminator ∉ front) :
      (front ++ terminator :: back).takeWhile (· ≠ terminator) = front := by
    have hfront : ∀ c ∈ front, decide (c ≠ terminator) = true :=
      fun c hc => decide_eq_true fun heq => h (heq ▸ hc)
    rw [List.takeWhile_append_of_pos hfront]
    simp
  obtain ⟨front, more, rfl, hfront⟩ := List.eq_append_cons_of_mem hmem
  rw [List.append_assoc, List.cons_append] at hall
  have hfronts : front = head := by
    have := congrArg (List.takeWhile (· ≠ terminator)) hall
    rwa [htake hfront, htake hhead] at this
  subst hfronts
  refine ⟨?_, more, (List.cons.inj (List.append_cancel_left hall)).2⟩
  rw [throughTerminator?]
  rw [if_pos hmem, htake hfront]

/-- A reply is read up to its end however the bytes of it are cut. -/
theorem readReplyFrom_of_stream (command : String) (limit : Nat) {fuel : Nat}
    {got head tail : List Char} {link : Link} {pieces : List (List UInt8)} (hup : link.up = true)
    (hinbox : link.inbox = pieces.map .bytes) (hascii : ∀ b ∈ pieces.flatten, b.toNat < 128)
    (hgot : terminator ∉ got) (hhead : terminator ∉ head)
    (hall : got ++ asciiChars pieces.flatten = head ++ terminator :: tail)
    (hfuel : link.load < fuel) :
    ∃ left : List (List UInt8), readReplyFrom command limit fuel got link =
        (.ok (String.ofList (head ++ [terminator])), { link with inbox := left.map .bytes }) ∧
      left.flatten <:+ pieces.flatten ∧ ∃ more, more ++ asciiChars left.flatten = tail := by
  induction fuel generalizing got link pieces with
  | zero => exact absurd hfuel (Nat.not_lt_zero _)
  | succ fuel ih =>
      cases pieces with
      | nil =>
          have hmem : terminator ∈ got ++ asciiChars ([] : List (List UInt8)).flatten :=
            hall ▸ List.mem_append_right _ List.mem_cons_self
          exact absurd (by simpa [asciiChars] using hmem) hgot
      | cons piece pieces =>
          obtain ⟨bytes, left, hreceive, hflatten, hload⟩ :=
            Link.receive_piece (by decide : 0 < pieceSize) hup hinbox
          have hsuffix : left.flatten <:+ (piece :: pieces).flatten := ⟨bytes, hflatten.symm⟩
          rw [hflatten] at hascii hall
          have hbytes : (Text.Utf8.decodeLossy bytes).toList = asciiChars bytes :=
            decodeLossy_ascii fun b hb => hascii b (List.mem_append_left _ hb)
          rw [asciiChars_append, ← List.append_assoc] at hall
          rw [readReplyFrom, hreceive]
          simp only [hbytes]
          by_cases hmem : terminator ∈ got ++ asciiChars bytes
          · obtain ⟨hfound, hmore⟩ := throughTerminator?_eq hmem hhead hall
            rw [hfound]
            exact ⟨left, rfl, hsuffix, hmore⟩
          · rw [throughTerminator?, if_neg hmem]
            have hstays : ({ link with inbox := left.map .bytes } : Link).up = true := hup
            obtain ⟨later, hread, hlater, hmore⟩ := ih hstays rfl
              (fun b hb => hascii b (List.mem_append_right _ hb)) hmem hall (by omega)
            exact ⟨later, hread, hlater.trans hsuffix, hmore⟩

/-! ## Exchanges -/

/-- A request and the answer to it: a status, a payload, the padding behind the reply, and the
pieces in which all that arrives. -/
structure Exchange where
  request : Request
  status : Int
  payload : String
  padding : List UInt8
  pieces : List (List UInt8)
  deriving Repr

namespace Exchange

def text (e : Exchange) : String :=
  match e.request.command with
  | .ok command => command.text
  | .error _ => ""

def reply (e : Exchange) : Reply :=
  ⟨e.status, e.payload, e.text, Reply.written e.status e.payload e.text⟩

def result (e : Exchange) : Except Failure Answer :=
  if e.status = 0 then e.request.read e.reply else .error (.rejected e.status e.text)

def arrives (e : Exchange) (b : Bench) : Bench :=
  b.update .dashboard fun link =>
    e.pieces.foldl (fun link piece => link.deliver (.bytes piece)) link

def behind (limit : Nat) (b : Bench) (e : Exchange) : Bench :=
  (e.request.perform limit (e.arrives b)).2

/-- The request is accepted, and the answer is one that a controller can give to it. -/
structure Fits (e : Exchange) : Prop where
  valid : (Query.request e.request).IsValid
  ascii : e.request.IsAscii
  status : Decimal.int32.holds e.status
  payload : ∀ c ∈ e.payload.toList, c.toNat < 128 ∧ c ≠ terminator
  trimmed : Text.trim e.payload.toList = e.payload.toList
  padding : ∀ b ∈ e.padding, b.toNat < 128 ∧ Reply.isPadding (Char.ofNat b.toNat) = true
  pieces : e.pieces.flatten = Utf8.encode (Reply.written e.status e.payload e.text) ++ e.padding

theorem plain_of_all {text : List Char}
    (h : (text.all fun c => decide (c.toNat < 128 ∧ c ≠ terminator)) = true) :
    ∀ c ∈ text, c.toNat < 128 ∧ c ≠ terminator :=
  fun c hc => of_decide_eq_true (List.all_eq_true.1 h c hc)

theorem Fits.command {e : Exchange} (h : e.Fits) :
    ∃ command, e.request.command = .ok command ∧ command.check = .ok () ∧
      e.text = command.text ∧ Reply.Echoes e.text.toList := by
  obtain ⟨command, hcommand, hcheck⟩ := h.valid
  have hcommand : e.request.command = .ok command := hcommand
  have htext : e.text = command.text := by rw [text, hcommand]
  refine ⟨command, hcommand, hcheck, htext, ?_⟩
  rw [htext, Command.text, String.toList_ofList]
  exact Request.echoes_command hcommand h.ascii

/-- A written reply is ASCII and has its only terminator at its end. -/
theorem Fits.written {e : Exchange} (h : e.Fits) :
    ∃ head, (Reply.written e.status e.payload e.text).toList = head ++ [terminator] ∧
      terminator ∉ head ∧
      ∀ c ∈ (Reply.written e.status e.payload e.text).toList, c.toNat < 128 := by
  obtain ⟨-, -, -, -, hecho⟩ := h.command
  exact Reply.written_ends e.status h.payload hecho

end Exchange

theorem sendDashboard_silent {b : Bench} {command : String} (hsilent : b.controller = .silent)
    (hup : b.dashboard.up = true) (hwilling : b.dashboard.sendFaults = []) :
    b.sendDashboard command = (.ok (), { b with
      dashboard := { b.dashboard with sent := b.dashboard.sent ++ [command] } }) := by
  unfold Bench.sendDashboard Link.send
  rw [if_pos hup]
  simp only [hwilling]
  refine congrArg (Prod.mk _) (Bench.heardDashboard_silent ?_ command)
  exact hsilent

/-- Nothing but padding is left from earlier exchanges. -/
structure Ready (b : Bench) : Prop where
  silent : b.controller = .silent
  up : b.dashboard.up = true
  willing : b.dashboard.sendFaults = []
  left : ∃ pieces : List (List UInt8), b.dashboard.inbox = pieces.map .bytes ∧
    ∀ b ∈ pieces.flatten, b.toNat < 128 ∧ Reply.isPadding (Char.ofNat b.toNat) = true

theorem deliver_pieces (pieces : List (List UInt8)) (link : Link) :
    pieces.foldl (fun link piece => link.deliver (.bytes piece)) link =
      { link with inbox := link.inbox ++ pieces.map .bytes } := by
  induction pieces generalizing link with
  | nil => simp
  | cons piece rest ih =>
      rw [List.foldl_cons, ih, Link.deliver, List.map_cons, List.append_assoc]
      rfl

theorem Exchange.arrives_eq (e : Exchange) (b : Bench) :
    e.arrives b = { b with
      dashboard := { b.dashboard with inbox := b.dashboard.inbox ++ e.pieces.map .bytes } } := by
  show { b with dashboard := e.pieces.foldl _ b.dashboard } = _
  rw [deliver_pieces]

/-- It is all the same whether an answer is there before its command is sent or comes behind it. -/
theorem sendDashboard_arrives {b : Bench} (hsilent : b.controller = .silent) (e : Exchange)
    (command : String) :
    (e.arrives b).sendDashboard command =
      ((b.sendDashboard command).1, e.arrives (b.sendDashboard command).2) := by
  rw [e.arrives_eq, e.arrives_eq]
  unfold Bench.sendDashboard
  rw [Link.send_arrived]
  cases b.dashboard.send command with
  | mk result dashboard =>
      cases result with
      | error failure => rfl
      | ok => simp only [Bench.heardDashboard_silent, hsilent]

/-- The reply that is read is the one to the command that was sent, and what is left behind
it is padding. -/
theorem Ready.readReply {b : Bench} (h : Ready b) {e : Exchange} (fits : e.Fits) {limit : Nat}
    (timed : limit ≠ 0) (sent : List String) :
    ∃ line left, Dashboard.readReply e.text limit { (e.arrives b).dashboard with sent } =
        (.ok line, { b.dashboard with inbox := left, sent }) ∧
      Reply.parse line = .ok e.reply ∧
      Ready { b with dashboard := { b.dashboard with inbox := left, sent } } := by
  obtain ⟨head, hwritten, hhead, hascii⟩ := fits.written
  obtain ⟨pieces, hinbox, hpieces⟩ := h.left
  obtain ⟨-, -, -, -, hecho⟩ := fits.command
  obtain ⟨hencoded, hchars⟩ := encode_ascii hascii
  have harrived : (e.arrives b).dashboard =
      { b.dashboard with inbox := (pieces ++ e.pieces).map .bytes } := by
    rw [List.map_append, ← hinbox, e.arrives_eq]
  have hbytes : ∀ b ∈ (pieces ++ e.pieces).flatten, b.toNat < 128 := by
    intro b hb
    rw [List.flatten_append, fits.pieces] at hb
    rcases List.mem_append.1 hb with hb | hb
    · exact (hpieces b hb).1
    · rcases List.mem_append.1 hb with hb | hb
      · exact hencoded b hb
      · exact (fits.padding b hb).1
  obtain ⟨hpadding, hunended⟩ := asciiChars_padding hpieces
  have hfront : terminator ∉ asciiChars pieces.flatten ++ head :=
    fun hc => (List.mem_append.1 hc).elim hunended hhead
  -- All that is there to be read, as one text.
  have hall : [] ++ asciiChars (pieces ++ e.pieces).flatten =
      (asciiChars pieces.flatten ++ head) ++ terminator :: asciiChars e.padding := by
    rw [List.nil_append, List.flatten_append, asciiChars_append, fits.pieces, asciiChars_append]
    show _ ++ (asciiChars ((Reply.written e.status e.payload e.text).toList.flatMap _) ++ _) = _
    rw [hchars, hwritten]
    simp
  have hup : ({ (e.arrives b).dashboard with sent } : Link).up = true := by
    rw [harrived]
    exact h.up
  have hthere : ({ (e.arrives b).dashboard with sent } : Link).inbox =
      (pieces ++ e.pieces).map .bytes := by rw [harrived]
  obtain ⟨left, hread, hsuffix, more, hmore⟩ := readReplyFrom_of_stream e.text limit hup hthere
    hbytes List.not_mem_nil hfront hall (Nat.lt_succ_self _)
  refine ⟨String.ofList (asciiChars pieces.flatten ++ head ++ [terminator]), left.map .bytes,
    ?_, ?_, ⟨h.silent, h.up, h.willing, left, rfl, fun b hb => ?_⟩⟩
  · rw [Dashboard.readReply, if_neg timed, hread, harrived]
  · rw [List.append_assoc, ← hwritten]
    rw [Reply.parse_written fits.status hecho hpadding, fits.trimmed, String.ofList_toList]
    rfl
  · refine ⟨hbytes b (hsuffix.subset hb), ?_⟩
    have hmem : Char.ofNat b.toNat ∈ asciiChars e.padding :=
      hmore ▸ List.mem_append_right _ (List.mem_map_of_mem hb)
    obtain ⟨b', hb', heq⟩ := List.mem_map.1 hmem
    rw [← heq]
    exact (fits.padding b' hb').2

/-- One exchange: what is sent, read and returned, and what is left. -/
theorem Ready.exchange {b : Bench} (h : Ready b) {e : Exchange} (fits : e.Fits) {limit : Nat}
    (timed : limit ≠ 0) :
    (∃ line, (Dashboard.readReply e.text limit
        ((e.arrives b).sendDashboard e.text).2.dashboard).1 = .ok line ∧
      Reply.parse line = .ok e.reply) ∧
    (e.request.perform limit (e.arrives b)).1 = e.result ∧
    (e.behind limit b).dashboard.sent = b.dashboard.sent ++ [e.text] ∧
    Ready (e.behind limit b) := by
  obtain ⟨line, left, hread, hparse, hready⟩ :=
    h.readReply fits timed (b.dashboard.sent ++ [e.text])
  obtain ⟨command, hcommand, hcheck, htext, -⟩ := fits.command
  have hsend : (e.arrives b).sendDashboard e.text = (.ok (), { b with
      dashboard := { (e.arrives b).dashboard with sent := b.dashboard.sent ++ [e.text] } }) := by
    rw [sendDashboard_arrives h.silent, sendDashboard_silent h.silent h.up h.willing,
      e.arrives_eq, e.arrives_eq]
  have hcall : call limit command (e.arrives b) = (accept e.text line, { b with
      dashboard := { b.dashboard with inbox := left, sent := b.dashboard.sent ++ [e.text] } }) := by
    rw [call]
    rw [hcheck, ← htext]
    simp only [hsend, hread]
  have haccept : accept e.text line =
      if e.status = 0 then .ok e.reply else .error (.rejected e.status e.text) := by
    rw [accept]
    rw [hparse]
    show (if decide (e.status = 0) = true then _ else _) = _
    simp only [decide_eq_true_eq]
    rfl
  have hperform : e.request.perform limit (e.arrives b) = (e.result, { b with
      dashboard := { b.dashboard with inbox := left, sent := b.dashboard.sent ++ [e.text] } }) := by
    unfold Request.perform Exchange.result
    rw [hcommand]
    simp only [hcall, haccept]
    by_cases hstatus : e.status = 0
    · rw [if_pos hstatus, if_pos hstatus]
    · rw [if_neg hstatus, if_neg hstatus]
  have hbehind : e.behind limit b = { b with
      dashboard := { b.dashboard with inbox := left, sent := b.dashboard.sent ++ [e.text] } } := by
    rw [Exchange.behind, hperform]
  refine ⟨⟨line, ?_, hparse⟩, ?_, ?_, ?_⟩
  · rw [hsend]
    simp only [hread]
  · rw [hperform]
  · rw [hbehind]
  · rw [hbehind]
    exact hready

def exchanged (limit : Nat) (b : Bench) (es : List Exchange) : Bench :=
  es.foldl (Exchange.behind limit) b

theorem Ready.exchanged {b : Bench} (h : Ready b) {limit : Nat} (timed : limit ≠ 0)
    {es : List Exchange} (fits : ∀ e ∈ es, e.Fits) :
    Ready (exchanged limit b es) ∧
      (Dashboard.exchanged limit b es).dashboard.sent =
        b.dashboard.sent ++ es.map Exchange.text := by
  induction es generalizing b with
  | nil => exact ⟨h, (List.append_nil _).symm⟩
  | cons e rest ih =>
      obtain ⟨-, -, hsent, hnext⟩ := h.exchange (fits e List.mem_cons_self) timed
      obtain ⟨hready, hall⟩ := ih hnext fun x hx => fits x (List.mem_cons_of_mem e hx)
      refine ⟨hready, hall.trans ?_⟩
      rw [hsent, List.append_assoc]
      rfl

/-- However many exchanges there have been and however their answers were cut, the next request
sends its own command, reads the reply to it and to nothing else, and comes to what that reply says:
a rejection, or the reading of its payload, or that the payload cannot be read. The link stays up,
and nothing of this depends on the answer being there before its command is sent. -/
theorem exchanges_stay_in_step {limit : Nat} (timed : limit ≠ 0) {b : Bench} (ready : Ready b)
    (es : List Exchange) (e : Exchange) (fits : ∀ x ∈ es ++ [e], x.Fits) :
    let now := e.arrives (exchanged limit b es)
    let after := exchanged limit b (es ++ [e])
    after.dashboard.sent = b.dashboard.sent ++ (es ++ [e]).map Exchange.text ∧
    (∃ line, (readReply e.text limit (now.sendDashboard e.text).2.dashboard).1 = .ok line ∧
      Reply.parse line =
        .ok ⟨e.status, e.payload, e.text, Reply.written e.status e.payload e.text⟩) ∧
    (e.request.perform limit now).1 = e.result ∧
    (∀ failure, e.request.read e.reply = .error failure →
      ∃ fault line, failure = .malformed fault line) ∧
    after.dashboard.up = true ∧
    now.sendDashboard e.text =
      (((exchanged limit b es).sendDashboard e.text).1,
        e.arrives ((exchanged limit b es).sendDashboard e.text).2) := by
  intro now after
  obtain ⟨hbefore, -⟩ := ready.exchanged timed fun x hx => fits x (List.mem_append_left _ hx)
  obtain ⟨hafter, hsent⟩ := ready.exchanged timed fits
  obtain ⟨hread, hresult, -, -⟩ := hbefore.exchange (fits e (by simp)) timed
  exact ⟨hsent, hread, hresult, malforms_read e.request e.reply, hafter.up,
    sendDashboard_arrives hbefore.silent e e.text⟩

/-- A rejection whose line end comes late, and then a mode. -/
theorem exchanges_stay_in_step_late_padding :
    let b := { (Config.forAddress "controller").unreachable with
      dashboard := { Link.fresh "down" true with up := true } }
    let whole := Utf8.encode (Reply.written (-1) "" "SpeedFactor(50)")
    let first : Exchange :=
      { request := .speedFactor 50, status := -1, payload := "", padding := [13, 10]
        pieces := [whole.take 3, [], whole.drop 3 ++ [13], [10]] }
    let second : Exchange :=
      { request := .robotMode, status := 0, payload := "5", padding := []
        pieces := [Utf8.encode (Reply.written 0 "5" "RobotMode()")] }
    let now := second.arrives (exchanged 500 b [first])
    (exchanged 500 b [first, second]).dashboard.sent = ["SpeedFactor(50)", "RobotMode()"] ∧
      (Request.perform 500 .robotMode now).1 = second.result := by
  intro b whole first second now
  have hready : Ready b := ⟨rfl, rfl, rfl, [], rfl, fun _ hb => nomatch hb⟩
  have hpadding : (first.padding.all fun b =>
      decide (b.toNat < 128 ∧ Reply.isPadding (Char.ofNat b.toNat) = true)) = true := by decide
  have hfirst : first.Fits :=
    { valid := ⟨_, rfl, rfl⟩
      ascii := trivial
      status := by decide
      payload := Exchange.plain_of_all (by decide)
      trimmed := rfl
      padding := fun b hb => of_decide_eq_true (List.all_eq_true.1 hpadding b hb)
      pieces := by decide +kernel }
  have hsecond : second.Fits :=
    { valid := ⟨_, rfl, rfl⟩
      ascii := trivial
      status := by decide
      payload := Exchange.plain_of_all (by decide)
      trimmed := by decide
      padding := fun _ hb => nomatch hb
      pieces := by decide +kernel }
  have hfits : ∀ x ∈ [first] ++ [second], x.Fits := by
    intro x hx
    rcases List.mem_cons.1 hx with rfl | hx
    · exact hfirst
    · rw [List.mem_singleton.1 hx]
      exact hsecond
  obtain ⟨hsent, -, hresult, -⟩ :=
    exchanges_stay_in_step (by decide : 500 ≠ 0) hready [first] second hfits
  refine ⟨hsent.trans ?_, hresult⟩
  decide +kernel

end Dashboard

end ArmLink
