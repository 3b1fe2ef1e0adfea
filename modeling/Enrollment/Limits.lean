/-
How large the things may be that come from a peer.
-/

namespace Enrollment.Limits

/-- Bytes of a certificate, and of the text of a request for one. -/
def certificateSize : Nat := 16384

/-- Certificates in a chain. -/
def chainLength : Nat := 8

/-- Bytes of a message body in either direction. -/
def bodySize : Nat := 1048576

end Enrollment.Limits
