import Mathlib.Logic.Relation
import ArmLink.Link.Buffer
import ArmLink.Telemetry.Reader

/-!
# What a buffer is filled with

The bytes that come before anything else are what a buffer is filled with, however they
are cut into pieces, and pieces may be empty. `frontBytes` are these bytes, and
`behindBytes` is what comes behind them. One receive moves bytes from the front of the
link to the place behind what is filled (`front_receive`), and it is the last when there
are none (`ends_receive`). The run is `filling_fillFrom`, and it is about a buffer that is
filled so far.

The loop has no count of its rounds. `gather` has one, with a round for each arrival, and
comes to the same. So does the reader of the realtime link, whose rounds are steps that
others can come between: with nothing between them they lead to where the block of
`gather` leads.
-/

namespace ArmLink

/-! ## Writing -/

section

variable {buffer bytes : List UInt8} {start : Nat}

theorem length_overwrite (h : start + bytes.length ≤ buffer.length) :
    (overwrite buffer start bytes).length = buffer.length := by
  simp only [overwrite, List.length_append, List.length_take, List.length_drop]
  omega

theorem overwrite_nil (buffer : List UInt8) (start : Nat) : overwrite buffer start [] = buffer := by
  rw [overwrite, List.append_nil]
  exact List.take_append_drop start buffer

theorem overwrite_zero (buffer bytes : List UInt8) :
    overwrite buffer 0 bytes = bytes ++ buffer.drop bytes.length := by
  rw [overwrite, List.take_zero, List.nil_append, Nat.zero_add]

theorem overwrite_overwrite (h : start + bytes.length ≤ buffer.length) (more : List UInt8) :
    overwrite (overwrite buffer start bytes) (start + bytes.length) more =
      overwrite buffer start (bytes ++ more) := by
  have hfront : (buffer.take start ++ bytes).length = start + bytes.length := by
    rw [List.length_append, List.length_take]
    omega
  have htake : (overwrite buffer start bytes).take (start + bytes.length) =
      buffer.take start ++ bytes := by
    rw [overwrite, List.take_left' hfront]
  have hdrop : (overwrite buffer start bytes).drop (start + bytes.length + more.length) =
      buffer.drop (start + (bytes ++ more).length) := by
    rw [overwrite, ← List.drop_drop, List.drop_left' hfront, List.drop_drop, List.length_append,
      Nat.add_assoc]
  rw [overwrite, htake, hdrop, overwrite, List.append_assoc _ bytes]

end

/-! ## Bytes in front -/

/-- The bytes that come before anything else. -/
def frontBytes : List Arrival → List UInt8
  | .bytes data :: rest => data ++ frontBytes rest
  | _ => []

/-- What comes behind the bytes in front. -/
def behindBytes : List Arrival → List Arrival
  | .bytes _ :: rest => behindBytes rest
  | inbox => inbox

/-- How filling ends with so many bytes in the buffer when these arrivals are what is left. -/
inductive Filled.Ends (count : Nat) (link : Link) : List Arrival → Filled → Link → Prop where
  | quiet (rest : List Arrival) :
      Ends count link (.quiet :: rest) (.ofCount count) { link with inbox := rest }
  | broken (text : String) (rest : List Arrival) :
      Ends count link (.broken text :: rest) (.failed (Link.fault text))
        { link with up := false, inbox := rest }
  | faulty (text : String) (rest : List Arrival) :
      Ends count link (.faulty text :: rest) (.failed (.io text))
        { link with up := false, inbox := rest }
  | silent (h : link.patient = false) : Ends count link [] (.ofCount count) { link with inbox := [] }
  | waiting (h : link.patient = true) : Ends count link [] (.waiting count) { link with inbox := [] }

theorem Filled.Ends.of_inbox {count : Nat} {link next : Link} {inbox later : List Arrival}
    {outcome : Filled} (h : Ends count { link with inbox := inbox } later outcome next) :
    Ends count link later outcome next := by
  cases h with
  | quiet rest => exact .quiet rest
  | broken text rest => exact .broken text rest
  | faulty text rest => exact .faulty text rest
  | silent h => exact .silent h
  | waiting h => exact .waiting h

def Received.filling (count : Nat) : Received → Filled
  | .data bytes => .ofCount (count + bytes.length)
  | .quiet => .ofCount count
  | .failed failure => .failed failure
  | .waiting => .waiting count

namespace Link

variable {size filled : Nat} {buffer bytes : List UInt8} {link next : Link}

/-- A receive takes its bytes from the front. It takes an arrival whole, or all that it asks for. -/
theorem front_receive (h : link.receive size = (.data bytes, next)) :
    frontBytes link.inbox = bytes ++ frontBytes next.inbox ∧
      behindBytes next.inbox = behindBytes link.inbox ∧
      next = { link with inbox := next.inbox } ∧
      (bytes.length < size → next.inbox.length < link.inbox.length) := by
  cases receives_of_eq h with
  | whole _ inbox =>
      rw [inbox]
      exact ⟨rfl, rfl, rfl, fun _ => Nat.lt_succ_self _⟩
  | part _ inbox long =>
      rw [inbox]
      refine ⟨?_, rfl, rfl, fun hshort => ?_⟩
      · rw [frontBytes, frontBytes, ← List.append_assoc, List.take_append_drop]
      · rw [List.length_take] at hshort
        omega

/-- A receive that brings no bytes finds none in front, and what it finds ends the filling. -/
theorem ends_receive {result : Received} (hup : link.up = true)
    (h : link.receive size = (result, next)) (hdata : ∀ bytes, result ≠ .data bytes) :
    frontBytes link.inbox = [] ∧
      ∀ count, Filled.Ends count link (behindBytes link.inbox) (result.filling count) next := by
  cases receives_of_eq h with
  | offline down => exact absurd (hup.symm.trans down) (by decide)
  | whole | part => exact absurd rfl (hdata _)
  | waiting _ inbox patient =>
      have hsame : link = { link with inbox := [] } := by rw [← inbox]
      rw [inbox]
      refine ⟨rfl, fun count => ?_⟩
      rw [hsame]
      exact .waiting patient
  | silent _ inbox patient =>
      have hsame : link = { link with inbox := [] } := by rw [← inbox]
      rw [inbox]
      refine ⟨rfl, fun count => ?_⟩
      rw [hsame]
      exact .silent patient
  | quiet _ inbox =>
      rw [inbox]
      exact ⟨rfl, fun _ => .quiet _⟩
  | broken _ inbox =>
      rw [inbox]
      exact ⟨rfl, fun _ => .broken _ _⟩
  | faulty _ inbox =>
      rw [inbox]
      exact ⟨rfl, fun _ => .faulty _ _⟩

theorem receive_waiting (h : link.receive size = (.waiting, next)) : next = link := by
  cases receives_of_eq h
  rfl

/-- What filling a buffer, filled so far, from a link has to come to. -/
structure Filling (filled : Nat) (buffer : List UInt8) (link : Link) (outcome : Filled)
    (after : List UInt8) (next : Link) : Prop where
  written : after =
    overwrite buffer filled ((frontBytes link.inbox).take (buffer.length - filled))
  full : buffer.length - filled ≤ (frontBytes link.inbox).length →
    outcome = .ofCount buffer.length ∧ next = { link with inbox := next.inbox } ∧
      frontBytes next.inbox = (frontBytes link.inbox).drop (buffer.length - filled) ∧
      behindBytes next.inbox = behindBytes link.inbox
  short : (frontBytes link.inbox).length < buffer.length - filled →
    Filled.Ends (filled + (frontBytes link.inbox).length) link (behindBytes link.inbox) outcome next

/-- A receive that brings no bytes is the last. -/
theorem filling_receive {result : Received} (hup : link.up = true) (hroom : filled < buffer.length)
    (h : link.receive size = (result, next)) (hdata : ∀ bytes, result ≠ .data bytes) :
    Filling filled buffer link (result.filling filled) buffer next := by
  obtain ⟨hfront, hends⟩ := ends_receive hup h hdata
  refine ⟨?_, fun hfull => ?_, fun _ => ?_⟩
  · rw [hfront, List.take_nil, overwrite_nil]
  · rw [hfront, List.length_nil] at hfull
    omega
  · rw [hfront, List.length_nil, Nat.add_zero]
    exact hends filled

theorem Filling.prepend {outcome : Filled} {after : List UInt8} {last : Link}
    (hroom : filled + bytes.length ≤ buffer.length)
    (hfront : frontBytes link.inbox = bytes ++ frontBytes next.inbox)
    (hbehind : behindBytes next.inbox = behindBytes link.inbox)
    (hnext : next = { link with inbox := next.inbox })
    (h : Filling (filled + bytes.length) (overwrite buffer filled bytes) next outcome after last) :
    Filling filled buffer link outcome after last := by
  obtain ⟨inbox, rfl⟩ : ∃ inbox, next = { link with inbox := inbox } := ⟨_, hnext⟩
  obtain ⟨hwritten, hfull, hshort⟩ := h
  have hrest : buffer.length - filled = bytes.length + (buffer.length - (filled + bytes.length)) := by
    omega
  rw [length_overwrite hroom] at hwritten hfull hshort
  -- The bytes taken count against the room and against the bytes in front alike.
  refine ⟨?_, fun hle => ?_, fun hlt => ?_⟩
  · rw [hwritten, overwrite_overwrite hroom, hfront, hrest, List.take_length_add_append]
  · rw [hfront, List.length_append, hrest, Nat.add_le_add_iff_left] at hle
    obtain ⟨houtcome, hlast, hleft, hlater⟩ := hfull hle
    refine ⟨houtcome, hlast, ?_, hlater.trans hbehind⟩
    rw [hleft, hfront, hrest, List.drop_length_add_append]
  · rw [hfront, List.length_append, hrest, Nat.add_lt_add_iff_left] at hlt
    rw [hfront, List.length_append, ← Nat.add_assoc, ← hbehind]
    exact (hshort hlt).of_inbox

theorem filling_fillFrom (filled : Nat) (buffer : List UInt8) (link : Link) (hup : link.up = true)
    (hfilled : filled ≤ buffer.length) :
    Filling filled buffer link (fillFrom filled buffer link).1 (fillFrom filled buffer link).2.1
      (fillFrom filled buffer link).2.2 := by
  fun_induction fillFrom filled buffer link with
  | case1 filled buffer link hroom bytes next hreceive ih =>
      -- What this round wrote stands in front of what the others write.
      obtain ⟨-, hstays, hsize⟩ := receive_data hreceive
      obtain ⟨hfront, hbehind, hnext, -⟩ := front_receive hreceive
      have hfits : filled + bytes.length ≤ buffer.length := by omega
      exact (ih hstays (by rwa [length_overwrite hfits])).prepend hfits hfront hbehind hnext
  | case2 filled buffer link hroom next hreceive =>
      exact filling_receive hup hroom hreceive (by simp)
  | case3 filled buffer link hroom failure next hreceive =>
      exact filling_receive hup hroom hreceive (by simp)
  | case4 filled buffer link hroom next hreceive =>
      exact filling_receive hup hroom hreceive (by simp)
  | case5 filled buffer link hroom =>
      have hfilled : filled = buffer.length := by omega
      subst hfilled
      refine ⟨?_, fun _ => ⟨rfl, rfl, ?_, rfl⟩, fun hlt => ?_⟩
      · rw [Nat.sub_self, List.take_zero, overwrite_nil]
      · rw [Nat.sub_self, List.drop_zero]
      · omega

end Link

/-! ## Rounds of the loop -/

namespace Link

def Gathered.filled : Gathered → Filled
  | block bytes => .data bytes.length
  | quiet => .quiet
  | failed failure _ => .failed failure
  | waiting got => .waiting got.length

theorem filled_settled (got : List UInt8) : (settled got).filled = .ofCount got.length := by
  cases got <;> rfl

theorem got_settled (got : List UInt8) : (settled got).got = got := by
  cases got <;> rfl

theorem overwrite_drop {filled : Nat} {buffer got : List UInt8} (hgot : got.length = filled) :
    overwrite buffer filled (got.drop filled) = buffer := by
  rw [← hgot, List.drop_length, overwrite_nil]

theorem gatherFrom_receive {size fuel filled : Nat} {got : List UInt8} {link : Link}
    (hgot : got.length = filled) (hroom : filled < size) (hfuel : link.inbox.length < fuel) :
    gatherFrom size fuel got link =
      match link.receive (size - filled) with
      | (.data bytes, next) => gatherFrom size (fuel - 1) (got ++ bytes) next
      | (.quiet, next) => (settled got, next)
      | (.failed failure, next) => (.failed failure got, next)
      | (.waiting, next) => (.waiting got, next) := by
  cases fuel with
  | zero => omega
  | succ fuel => rw [gatherFrom, if_neg (by omega), hgot]; rfl

theorem prefix_gatherFrom (size fuel : Nat) (got : List UInt8) (link : Link) :
    got <+: (gatherFrom size fuel got link).1.got := by
  have hsettled (got : List UInt8) : got <+: (settled got).got :=
    (got_settled got).symm ▸ List.prefix_refl got
  induction fuel generalizing got link with
  | zero => exact hsettled got
  | succ fuel ih =>
      rw [gatherFrom]
      split
      · exact hsettled got
      · split
        · exact (List.prefix_append got _).trans (ih _ _)
        · exact hsettled got
        · exact List.prefix_refl got
        · exact List.prefix_refl got

/-- When there are more rounds than arrivals, there are rounds enough. -/
theorem fillFrom_eq_gatherFrom {fuel filled : Nat} (buffer got : List UInt8) (link : Link)
    (hgot : got.length = filled) (hfilled : filled ≤ buffer.length)
    (hfuel : filled < buffer.length → link.inbox.length < fuel) :
    let (gathered, last) := gatherFrom buffer.length fuel got link
    fillFrom filled buffer link =
      (gathered.filled, overwrite buffer filled (gathered.got.drop filled), last) := by
  fun_induction fillFrom filled buffer link generalizing fuel got with
  | case1 filled buffer link hroom bytes next hreceive ih =>
      obtain ⟨-, -, hsize⟩ := receive_data hreceive
      obtain ⟨-, -, -, hshort⟩ := front_receive hreceive
      have hfits : filled + bytes.length ≤ buffer.length := by omega
      have hmore : (got ++ bytes).length = filled + bytes.length := by rw [List.length_append, hgot]
      have hinbox := hfuel hroom
      have hnext := @ih (fuel - 1) (got ++ bytes) hmore
      rw [length_overwrite hfits] at hnext
      obtain ⟨rest, hrest⟩ := prefix_gatherFrom buffer.length (fuel - 1) (got ++ bytes) next
      rw [gatherFrom_receive hgot hroom hinbox, hreceive]
      simp only at hnext ⊢
      rw [hnext hfits (by omega), ← hrest, ← hmore, List.drop_left, List.append_assoc, hmore,
        overwrite_overwrite hfits, ← hgot, List.drop_left]
  | case2 filled buffer link hroom next hreceive =>
      rw [gatherFrom_receive hgot hroom (hfuel hroom), hreceive]
      simp only
      rw [filled_settled, got_settled, overwrite_drop hgot, hgot]
  | case3 filled buffer link hroom failure next hreceive =>
      rw [gatherFrom_receive hgot hroom (hfuel hroom), hreceive]
      simp only
      rw [Gathered.got, overwrite_drop hgot, Gathered.filled]
  | case4 filled buffer link hroom next hreceive =>
      rw [gatherFrom_receive hgot hroom (hfuel hroom), hreceive]
      simp only
      rw [Gathered.got, overwrite_drop hgot, Gathered.filled, hgot]
  | case5 filled buffer link hroom =>
      have hfull : gatherFrom buffer.length fuel got link = (settled got, link) := by
        cases fuel with
        | zero => rfl
        | succ fuel => rw [gatherFrom, if_pos (by omega)]
      rw [hfull]
      simp only
      rw [filled_settled, got_settled, overwrite_drop hgot, hgot]

/-- On a link that is up a buffer with room in it is filled with the bytes in front of the link,
as many as there are and fit, and keeps what it has behind them. When there are enough, the
rest of them is still in front of the link, and what comes behind is not touched. When there
are not, it is what comes behind that ends the filling, and it alone is gone. The loop
ends within a round for each arrival and one more. -/
theorem fill_conserves_bytes (link : Link) (buffer : List UInt8) {limit : Nat}
    (hup : link.up = true) (hroom : buffer ≠ []) (hlimit : limit ≠ 0) :
    let bytes := frontBytes link.inbox
    let later := behindBytes link.inbox
    let (outcome, after, next) := link.fill buffer limit
    after.length = buffer.length ∧
    (buffer.length ≤ bytes.length →
      outcome = .data buffer.length ∧ after = bytes.take buffer.length ∧
        next = { link with inbox := next.inbox } ∧
        frontBytes next.inbox = bytes.drop buffer.length ∧ behindBytes next.inbox = later) ∧
    (bytes.length < buffer.length →
      after = bytes ++ buffer.drop bytes.length ∧
        Filled.Ends bytes.length link later outcome next) ∧
    ∀ rounds, link.inbox.length < rounds →
      let (gathered, last) := gatherFrom buffer.length rounds [] link
      outcome = gathered.filled ∧ after = gathered.got ++ buffer.drop gathered.got.length ∧
        next = last := by
  intro bytes later
  obtain ⟨hwritten, hfull, hshort⟩ := filling_fillFrom 0 buffer link hup (Nat.zero_le _)
  rw [Nat.sub_zero] at hwritten hfull hshort
  rw [Nat.zero_add] at hshort
  have hfits : 0 + (bytes.take buffer.length).length ≤ buffer.length := by
    rw [Nat.zero_add]
    exact List.length_take_le _ _
  have hcount : Filled.ofCount buffer.length = .data buffer.length :=
    if_neg fun hzero => hroom (List.eq_nil_of_length_eq_zero hzero)
  rw [fill, if_neg hlimit]
  refine ⟨?_, fun hle => ?_, fun hlt => ⟨?_, hshort hlt⟩, fun rounds hrounds => ?_⟩
  · rw [hwritten, length_overwrite hfits]
  · obtain ⟨houtcome, hnext⟩ := hfull hle
    refine ⟨houtcome.trans hcount, ?_, hnext⟩
    have hlength : (bytes.take buffer.length).length = buffer.length := List.length_take_of_le hle
    rw [hwritten, overwrite_zero, hlength, List.drop_length, List.append_nil]
  · rw [hwritten, List.take_of_length_le (Nat.le_of_lt hlt), overwrite_zero]
  · have hgathered : fillFrom 0 buffer link = _ :=
      fillFrom_eq_gatherFrom buffer [] link rfl (Nat.zero_le _) fun _ => hrounds
    rw [hgathered, List.drop_zero, overwrite_zero]
    exact ⟨rfl, rfl, rfl⟩

/-- Bytes in pieces, some of them empty, and then the end: for a buffer that ends within a piece,
and for one that is never full. -/
theorem fill_conserves_bytes_of_pieces :
    let link := { Link.fresh "down" true with up := true, inbox :=
      [.bytes [], .bytes [1, 2, 3], .bytes [], .bytes [4, 5], .broken "gone"] }
    let short := link.fill [0, 0, 0, 0] 5
    let long := link.fill [9, 9, 9, 9, 9, 9, 9] 5
    short.1 = .data 4 ∧ short.2.1 = [1, 2, 3, 4] ∧ frontBytes short.2.2.inbox = [5] ∧
      behindBytes short.2.2.inbox = [.broken "gone"] ∧
      long.1 = .failed (fault "gone") ∧ long.2.1 = [1, 2, 3, 4, 5, 9, 9] ∧ long.2.2.inbox = [] := by
  intro link short long
  have htimed : 5 ≠ 0 := by decide
  obtain ⟨-, hfull, -, -⟩ := fill_conserves_bytes link [0, 0, 0, 0] rfl (by decide) htimed
  obtain ⟨-, -, hshort, -⟩ :=
    fill_conserves_bytes link [9, 9, 9, 9, 9, 9, 9] rfl (by decide) htimed
  obtain ⟨houtcome, hafter, -, hfront, hbehind⟩ := hfull (by decide)
  obtain ⟨hkept, hends⟩ := hshort (by decide)
  have hbroken {outcome : Filled} {next : Link}
      (h : Filled.Ends 5 link [.broken "gone"] outcome next) :
      outcome = .failed (fault "gone") ∧ next.inbox = [] := by
    cases h
    exact ⟨rfl, rfl⟩
  exact ⟨houtcome, hafter, hfront, hbehind, (hbroken hends).1, hkept, (hbroken hends).2⟩

end Link

/-! ## The reader's block -/

namespace Telemetry.Reader

/-- Where the reader goes from what gathering its block has come to. -/
def gathered (r : Reader) : Link.Gathered → Reader
  | .block got => r.hushed got
  | .quiet => r.hushed []
  | .failed _ _ => r.go .failing
  | .waiting got => r.go (.gathering got)

theorem gathered_settled (r : Reader) (got : List UInt8) :
    r.gathered (Link.settled got) = r.hushed got := by
  cases got <;> rfl

/-- A step of the reader that leaves the feed as it is. -/
def Goes (patience : Patience) (now : Nat) (feed : Feed) (before after : Reader × Link) : Prop :=
  before.1.step patience now feed before.2 = some (after.1, feed, after.2)

theorem step_gathering (patience : Patience) (now : Nat) (r : Reader) (feed : Feed)
    (got : List UInt8) (link : Link) :
    (r.go (.gathering got)).step patience now feed link =
      if patience.receive = 0 then some (r.hushed got, feed, link)
      else if frameSize ≤ got.length then some (r.go (.taking got), feed, link)
      else
        match link.receive (frameSize - got.length) with
        | (.data bytes, next) => some (r.go (.gathering (got ++ bytes)), feed, next)
        | (.quiet, next) => some (r.hushed got, feed, next)
        | (.failed _, next) => some (r.go .failing, feed, next)
        | (.waiting, _) => none := rfl

theorem goes_gatherFrom {patience : Patience} (timed : patience.receive ≠ 0) (now : Nat)
    (feed : Feed) (r : Reader) {fuel : Nat} {got : List UInt8} {link : Link}
    (hfuel : got.length < frameSize → link.inbox.length < fuel) :
    Relation.ReflTransGen (Goes patience now feed) (r.go (.gathering got), link)
      (r.gathered (Link.gatherFrom frameSize fuel got link).1,
        (Link.gatherFrom frameSize fuel got link).2) := by
  have hfull {got : List UInt8} {link : Link} (hle : frameSize ≤ got.length) :
      Goes patience now feed (r.go (.gathering got), link)
        (r.gathered (Link.settled got), link) := by
    have hne : got ≠ [] := by
      rintro rfl
      exact absurd hle (by decide)
    rw [Goes, step_gathering, if_neg timed, if_pos hle, gathered_settled, hushed, if_neg hne]
  induction fuel generalizing got link with
  | zero => exact .single (hfull (by omega))
  | succ fuel ih =>
      rw [Link.gatherFrom]
      by_cases hle : frameSize ≤ got.length
      · rw [if_pos hle]
        exact .single (hfull hle)
      · have hstep := r.step_gathering patience now feed got link
        rw [if_neg timed, if_neg hle] at hstep
        rw [if_neg hle]
        rcases hreceive : link.receive (frameSize - got.length) with ⟨result, next⟩
        rw [hreceive] at hstep
        cases result with
        | data bytes =>
            obtain ⟨-, -, hsize⟩ := Link.receive_data hreceive
            obtain ⟨-, -, -, hshort⟩ := Link.front_receive hreceive
            have hgoes : Goes patience now feed (r.go (.gathering got), link)
                (r.go (.gathering (got ++ bytes)), next) := hstep
            refine .head hgoes (ih fun hmore => ?_)
            rw [List.length_append] at hmore
            omega
        | quiet =>
            refine .single ?_
            rw [gathered_settled]
            exact hstep
        | failed failure => exact .single hstep
        | waiting =>
            obtain rfl := Link.receive_waiting hreceive
            exact .refl

/-- Where a reader with a block to gather gets by steps of its own with nothing between them: to
where the block leads that is gathered at once. -/
theorem goes_gather (patience : Patience) (now : Nat) (feed : Feed) (r : Reader) (link : Link) :
    Relation.ReflTransGen (Goes patience now feed) (r.go (.gathering []), link)
      (r.gathered (link.gather frameSize patience.receive).1,
        (link.gather frameSize patience.receive).2) := by
  rw [Link.gather]
  split
  · next hzero =>
      refine .single ?_
      rw [Goes, step_gathering, if_pos hzero]
      rfl
  · next timed => exact goes_gatherFrom timed now feed r fun _ => by omega

end Telemetry.Reader

end ArmLink
