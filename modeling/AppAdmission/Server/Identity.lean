import AppAdmission.Server.Pem

/-!
# The identity of the server

The certificates and the key that the server shows, read from PEM files once at the start. Whether
they are sound and fit together is the business of whoever opens connections, and a parameter here.
-/

namespace AppAdmission

/-- What can be wrong with the files of an identity. -/
inductive IdentityFault where
  | unreadable
  | noCertificates
  | noPrivateKey
  | refused
  deriving DecidableEq, Repr

/-- The certificates of a server, its own first, and its key. -/
structure Identity where
  certificates : List (List UInt8)
  key : List UInt8
  deriving DecidableEq, Repr

namespace Identity

/-- The contents of a file; there are none if there is no such file. -/
def contents (file : Option (List UInt8)) : Except IdentityFault Pem.Contents :=
  match file with
  | some bytes => .ok (Pem.read bytes)
  | none => .error .unreadable

/-- All certificates of a file, which must be without fault. -/
def readCertificates (file : Option (List UInt8)) : Except IdentityFault (List (List UInt8)) := do
  let c ← contents file
  let found := (c.sections.filter fun s => s.kind == .certificate).map (·.bytes)
  if !c.intact then throw .unreadable
  else if found.isEmpty then throw .noCertificates
  else return found

/-- The first key of a file; what stands after it does not matter. -/
def readKey (file : Option (List UInt8)) : Except IdentityFault (List UInt8) := do
  let c ← contents file
  match c.sections.find? fun s => s.kind.privateB with
  | some s => return s.bytes
  | none => throw (if c.intact then .noPrivateKey else .unreadable)

/-- The identity that two files give, if it is sound. -/
def load (sound : Identity → Bool) (certificateFile keyFile : Option (List UInt8)) :
    Except IdentityFault Identity := do
  let identity : Identity := ⟨← readCertificates certificateFile, ← readKey keyFile⟩
  if sound identity then return identity else throw .refused

end Identity

end AppAdmission
