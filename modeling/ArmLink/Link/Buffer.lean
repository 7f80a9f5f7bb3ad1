import ArmLink.Link

/-!
# Filling a buffer

A caller that wants a block of bytes lends a buffer for it. What comes is written
behind what is there already, until the buffer is full or nothing more comes.
Bytes that have come before the link fails are in the buffer, but the caller is
told of the failure only.

Every receive takes something off the link, so there is an end to it.
-/

namespace ArmLink

/-- The buffer with these bytes written from `start` on. -/
def overwrite (buffer : List UInt8) (start : Nat) (bytes : List UInt8) : List UInt8 :=
  buffer.take start ++ bytes ++ buffer.drop (start + bytes.length)

/-- What filling a buffer came to. -/
inductive Filled where
  /-- So many bytes are at the front of the buffer. -/
  | data (count : Nat)
  | quiet
  | failed (failure : Failure)
  /-- More has to arrive first. So many bytes are there already. -/
  | waiting (count : Nat)
  deriving DecidableEq, Repr

/-- A full buffer, or what silence makes of one. -/
def Filled.ofCount (count : Nat) : Filled :=
  if count = 0 then .quiet else .data count

namespace Link

/-- Receives until the buffer, which is filled so far, is full or nothing more comes. -/
def fillFrom (filled : Nat) (buffer : List UInt8) (link : Link) : Filled × List UInt8 × Link :=
  if _ : filled < buffer.length then
    match _ : link.receive (buffer.length - filled) with
    | (.data bytes, next) => fillFrom (filled + bytes.length) (overwrite buffer filled bytes) next
    | (.quiet, next) => (.ofCount filled, buffer, next)
    | (.failed failure, next) => (.failed failure, buffer, next)
    | (.waiting, next) => (.waiting filled, buffer, next)
  else (.ofCount filled, buffer, link)
termination_by link.load
decreasing_by
  rename_i hroom hreceive
  exact load_receive (Nat.sub_pos_of_lt hroom) hreceive

/-- Fills a buffer within a time limit in milliseconds. Receiving takes no time, so only a limit of
zero is ever passed. -/
def fill (buffer : List UInt8) (limit : Nat) (link : Link) : Filled × List UInt8 × Link :=
  if limit = 0 then (.quiet, buffer, link) else fillFrom 0 buffer link

end Link

end ArmLink
