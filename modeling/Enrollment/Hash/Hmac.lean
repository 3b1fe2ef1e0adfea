/-
HMAC over SHA-256.

A key longer than a block is hashed first, and a key shorter than a block is
filled up with zero bytes, so keys that differ only in zero bytes at their end
give the same codes.
-/
import Enrollment.Hash.Sha2

namespace Enrollment.Hmac

/-- Bytes of a block of SHA-256. -/
def blockSize : Nat := 64

/-- The key as one block. -/
def blockKey (key : Bytes) : Bytes :=
  let short := if key.length ≤ blockSize then key else sha256 key
  short ++ List.replicate (blockSize - short.length) 0

/-- The authentication code of a message under a key. -/
def code (key message : Bytes) : Bytes :=
  let block := blockKey key
  let inner := sha256 (block.map (· ^^^ 0x36) ++ message)
  sha256 (block.map (· ^^^ 0x5c) ++ inner)

end Enrollment.Hmac
