import SegmentClient.NodeAddress
import SegmentClient.Settings
import SegmentClient.Stream.Fault
import SegmentClient.TrustStore.Pem

namespace SegmentClient

structure SystemFault where
  code : Nat
  kind : StreamFault.Kind
  text : String
deriving DecidableEq, Repr

def SystemFault.toStream (fault : SystemFault) : StreamFault :=
  ⟨fault.kind, s!"{fault.text} (os error {fault.code})"⟩

inductive Network
  | unreachable
  | refusing
  | answering
deriving DecidableEq, Repr

def Network.dial : Network → Except SystemFault Unit
  | unreachable => .error ⟨101, .networkUnreachable, "Network is unreachable"⟩
  | refusing => .error ⟨111, .connectionRefused, "Connection refused"⟩
  | answering => .ok ()

inductive ConnectionFault
  | closed
  | failed (fault : StreamFault)
  | system (fault : SystemFault)
  | handshake (fault : StreamFault)
  | badCertificate
  | trustStore (path : String) (fault : TrustStore.Fault)
  | noCertificates
deriving DecidableEq, Repr

namespace ConnectionFault

def message : ConnectionFault → String
  | closed => "connection is closed"
  | failed fault => s!"connection failed: {fault.message}"
  | system fault => s!"connection failed: {fault.toStream.message}"
  | handshake fault => s!"tls handshake failed: {fault.message}"
  | badCertificate => "tls error: invalid peer certificate: BadEncoding"
  | trustStore path fault => s!"unable to load trust store '{path}': {fault.message}"
  | noCertificates =>
    "unable to build certificate verifier: no root trust anchors were provided"

end ConnectionFault

abbrev Files := StorePath → Option (List UInt8)

namespace TrustStore

/-- The certificates to trust. What a section holds has to be a certificate, which `isCertificate`
tells; sections are looked at in order and the first fault counts. -/
def load (isCertificate : List UInt8 → Bool) (path : StorePath) (contents? : Option (List UInt8)) :
    Except ConnectionFault (List (List UInt8)) :=
  match contents? with
  | none => .error (.trustStore path.text .missingFile)
  | some contents =>
    match Pem.certificates none [] (Pem.lines contents) with
    | (found, fault?) =>
      if found.any (fun certificate => !isCertificate certificate) then .error .badCertificate
      else
        match fault? with
        | some fault => .error (.trustStore path.text fault)
        | none => if found.isEmpty then .error .noCertificates else .ok found

end TrustStore

/-- Certificates are not read here, so that no content of a section counts as one. -/
def noCertificate (_ : List UInt8) : Bool := false

/-- What has to be in place before a TLS handshake; the handshake itself lies outside this library.
A trust store with an empty path is none, and the certificates of the platform take its place. -/
def Settings.secure (settings : Settings) (files : Files) : ConnectionFault :=
  let beyond := ConnectionFault.handshake (.ofKind .unsupported)
  match settings.trustStore with
  | none => beyond
  | some path =>
    if path.text.isEmpty then beyond
    else
      match TrustStore.load noCertificate path (files path) with
      | .error fault => fault
      | .ok _ => beyond

end SegmentClient
