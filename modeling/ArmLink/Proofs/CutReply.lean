import ArmLink.Proofs.LineInFront
import ArmLink.Proofs.WholeCharacters

/-!
# A reply in pieces

The bytes of a reply come in the chunks that the network makes of them, and a chunk
is read in pieces no longer than the buffer. Each piece is decoded by itself, and
the texts are put together behind that. So a call judges the reply as it was written
when every piece is a text of its own, which is always so for ASCII and always so
for a reply that is read at once, and then the cuts make no difference. A piece that
ends inside a character is read with replacement characters in its place, and
nothing later puts it right: the call judges a line that nobody sent.

What follows is exact, and says both. The terminator is a single byte that no other
character has in it, so the end of the reply is found whatever the cuts are.
-/

namespace ArmLink.Dashboard

open ArmLink.Reply (terminator)
open ArmLink.Text (Utf8.encode Utf8.decodeApart Utf8.decodeLossy)

/-- The pieces that a chunk of bytes is read in. -/
def piecesOf (chunk : List UInt8) : List (List UInt8) :=
  if chunk.length ≤ pieceSize then [chunk]
  else chunk.take pieceSize :: piecesOf (chunk.drop pieceSize)
termination_by chunk.length
decreasing_by
  rw [List.length_drop]
  have hpiece : 0 < pieceSize := by decide
  omega

theorem piecesOf_of_short {chunk : List UInt8} (h : chunk.length ≤ pieceSize) :
    piecesOf chunk = [chunk] := by
  rw [piecesOf, if_pos h]

theorem flatten_piecesOf (chunk : List UInt8) : (piecesOf chunk).flatten = chunk := by
  fun_induction piecesOf chunk with
  | case1 chunk => exact List.append_nil chunk
  | case2 chunk _ ih => rw [List.flatten_cons, ih, List.take_append_drop]

theorem flatten_flatMap_piecesOf (chunks : List (List UInt8)) :
    (chunks.flatMap piecesOf).flatten = chunks.flatten := by
  induction chunks with
  | nil => rfl
  | cons chunk rest ih =>
      rw [List.flatMap_cons, List.flatten_append, flatten_piecesOf, ih, List.flatten_cons]

theorem spelled_eq (chunk : List UInt8) :
    spelled chunk = (piecesOf chunk).flatMap fun piece => (Utf8.decodeLossy piece).toList := by
  fun_induction piecesOf chunk with
  | case1 chunk hshort => rw [spelled, if_pos hshort, List.flatMap_singleton]
  | case2 chunk hlong ih => rw [spelled, if_neg hlong, ih, List.flatMap_cons]

theorem heard_chunks (chunks : List (List UInt8)) (rest : List Arrival) :
    heard (chunks.map .bytes ++ rest) =
      (Utf8.decodeApart (chunks.flatMap piecesOf)).toList ++ heard rest := by
  rw [Utf8.decodeApart, String.toList_ofList]
  induction chunks with
  | nil => rfl
  | cons chunk more ih =>
      rw [List.map_cons, List.cons_append, heard, ih, spelled_eq, List.flatMap_cons,
        List.flatMap_append, List.append_assoc]

section

variable {text : String} {head : List Char} {chunks : List (List UInt8)}

/-- The terminator is the last byte of a line and no byte before. -/
theorem encode_line (htext : text.toList = head ++ [terminator]) (hhead : terminator ∉ head) :
    ∃ bytes, Utf8.encode text = bytes ++ [UInt8.ofNat terminator.toNat] ∧
      UInt8.ofNat terminator.toNat ∉ bytes := by
  refine ⟨Utf8.encode (String.ofList head), ?_, fun hbyte => hhead ?_⟩
  · rw [Text.Utf8.encode, Text.Utf8.encode, htext, List.flatMap_append, String.toList_ofList]
    rfl
  · have hchar := (Text.Utf8.mem_decodeLossy_iff (by decide)).2 hbyte
    rwa [Text.Utf8.decodeLossy_encode, String.toList_ofList] at hchar

/-- Wherever a line is cut, what is read of it ends where the line does. -/
theorem lineInFront?_chunks (hchunks : chunks.flatten = Utf8.encode text)
    (htext : text.toList = head ++ [terminator]) (hhead : terminator ∉ head)
    (rest : List Arrival) :
    lineInFront? (chunks.map .bytes ++ rest) = some (Utf8.decodeApart (chunks.flatMap piecesOf)) := by
  obtain ⟨bytes, hencode, hbytes⟩ := encode_line htext hhead
  have hpieces : (chunks.flatMap piecesOf).flatten = bytes ++ [UInt8.ofNat terminator.toNat] := by
    rw [flatten_flatMap_piecesOf, hchunks, hencode]
  obtain ⟨front, hline, hfront⟩ := Text.Utf8.decodeApart_last (by decide) hpieces hbytes
  have hmem : terminator ∈ (Utf8.decodeApart (chunks.flatMap piecesOf)).toList := by
    rw [hline]
    exact List.mem_append_right _ List.mem_cons_self
  have hall : (Utf8.decodeApart (chunks.flatMap piecesOf)).toList ++ [] =
      front ++ terminator :: [] := by
    rw [hline, List.append_nil]
  rw [lineInFront?, heard_chunks, throughTerminator?_of_mem hmem,
    (throughTerminator?_eq hmem hfront hall).1, ← hline]
  exact congrArg some String.ofList_toList

/-- A call judges the reply that the pieces give, each decoded by itself. That is the reply that was
sent exactly when no piece ends inside a character. -/
theorem call_judges_pieces {limit : Nat} {command : Command} {b after : Bench}
    {rest : List Arrival} (hsends : Sends limit command b after)
    (hinbox : after.dashboard.inbox = chunks.map .bytes ++ rest)
    (hchunks : chunks.flatten = Utf8.encode text)
    (htext : text.toList = head ++ [terminator]) (hhead : terminator ∉ head) :
    let pieces := chunks.flatMap piecesOf
    let line := Utf8.decodeApart pieces
    (call limit command b).1 = accept command.text line ∧
      (line = text ↔ ∀ piece ∈ pieces, ∃ part, piece = Utf8.encode part) := by
  intro pieces line
  have hfront : lineInFront? after.dashboard.inbox = some line := by
    rw [hinbox]
    exact lineInFront?_chunks hchunks htext hhead rest
  have hflatten : pieces.flatten = Utf8.encode text := (flatten_flatMap_piecesOf chunks).trans hchunks
  refine ⟨?_, Text.Utf8.decodeApart_eq_iff hflatten⟩
  rcases call_cases limit command b with
    ⟨after', line', hsends', hline', hresult⟩ | ⟨failure, -, -, hnone⟩
  · obtain rfl : after' = after := (Prod.mk.inj (hsends'.sent.symm.trans hsends.sent)).2
    obtain rfl := Option.some.inj (hline'.symm.trans hfront)
    exact hresult
  · exact absurd hfront (hnone after line hsends)

end

/-- The link to a silent controller, with some chunks on it. -/
def holding (chunks : List (List UInt8)) : Bench :=
  { (Config.forAddress "controller").unreachable with
    dashboard := { Link.fresh "down" true with up := true, inbox := chunks.map .bytes }
    controller := .silent }

/-- The name of a script is cut inside its one character, and the reply does not give it back. -/
theorem call_judges_pieces_cut :
    let text := "0,\x7b\x7d,RunScript(é);"
    let command : Command := ⟨"RunScript", [.text "é"]⟩
    let chunks := [(Utf8.encode text).take 16, (Utf8.encode text).drop 16]
    let b := holding chunks
    let after := (b.sendDashboard command.text).2
    let heard := "0,\x7b\x7d,RunScript(\uFFFD\uFFFD);"
    Sends 2000 command b after ∧
      (call 2000 command b).1 = .ok ⟨0, "", "RunScript(\uFFFD\uFFFD)", heard⟩ := by
  intro text command chunks b after heard
  have hsends : Sends 2000 command b after := ⟨rfl, rfl, by decide, by decide +kernel⟩
  have hinbox : after.dashboard.inbox = chunks.map .bytes ++ [] := by decide +kernel
  have hchunks : chunks.flatten = Utf8.encode text := by decide +kernel
  have htext : text.toList = text.toList.dropLast ++ [terminator] := by decide +kernel
  obtain ⟨hcall, -⟩ := call_judges_pieces hsends hinbox hchunks htext (by decide +kernel)
  have hpieces : chunks.flatMap piecesOf = chunks := by
    rw [List.flatMap_cons, List.flatMap_singleton, piecesOf_of_short (by decide +kernel),
      piecesOf_of_short (by decide +kernel)]
    rfl
  rw [hpieces] at hcall
  refine ⟨hsends, hcall.trans ?_⟩
  exact eq_ok_of_toOption (by decide +kernel)

/-- Two ways of cutting the bytes of one reply can come to two results. -/
theorem cutting_can_tell :
    ¬ ∀ (limit : Nat) (command : Command) (b b' after after' : Bench) (text : String)
      (head : List Char) (chunks chunks' : List (List UInt8)),
      Sends limit command b after → after.dashboard.inbox = chunks.map .bytes →
      Sends limit command b' after' → after'.dashboard.inbox = chunks'.map .bytes →
      chunks.flatten = Utf8.encode text → chunks'.flatten = Utf8.encode text →
      text.toList = head ++ [terminator] → terminator ∉ head →
      (call limit command b).1 = (call limit command b').1 := by
  intro hall
  let text := "0,\x7b\x7d,RunScript(é);"
  let command : Command := ⟨"RunScript", [.text "é"]⟩
  let cut := [(Utf8.encode text).take 16, (Utf8.encode text).drop 16]
  let b := holding [Utf8.encode text]
  let b' := holding cut
  have hsame := hall 2000 command b b' (b.sendDashboard command.text).2
    (b'.sendDashboard command.text).2 text text.toList.dropLast [Utf8.encode text] cut
    ⟨rfl, rfl, by decide, by decide +kernel⟩ (by decide +kernel)
    ⟨rfl, rfl, by decide, by decide +kernel⟩ (by decide +kernel)
    (by decide +kernel) (by decide +kernel) (by decide +kernel) (by decide +kernel)
  exact absurd (congrArg Except.toOption hsame) (by decide +kernel)

end ArmLink.Dashboard
