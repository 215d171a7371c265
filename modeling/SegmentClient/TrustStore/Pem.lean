import SegmentClient.TrustStore.Base64
import SegmentClient.Wire.Utf8

namespace SegmentClient.TrustStore

inductive Fault
  | missingFile
  | illegalSectionStart (line : List UInt8)
  | missingSectionEnd (label : List UInt8)
  | badBase64 (fault : Base64.Fault)
deriving DecidableEq, Repr

def showBytes (bytes : List UInt8) : String :=
  "[" ++ String.intercalate ", " (bytes.map toString) ++ "]"

def Fault.message : Fault → String
  | missingFile => "I/O error: No such file or directory (os error 2)"
  | illegalSectionStart line => s!"illegal section start: {showBytes line}"
  | missingSectionEnd label => s!"missing section end marker: {showBytes label}"
  | badBase64 fault => s!"base64 decode error: {fault.message}"

namespace Pem

def newline : UInt8 := 10

def carriageReturn : UInt8 := 13

def dash : UInt8 := 45

def space : UInt8 := 32

def lines (text : List UInt8) : List (List UInt8) :=
  text.foldr
    (fun byte lines =>
      if byte = newline ∨ byte = carriageReturn then [byte] :: lines
      else
        match lines with
        | [] => [[byte]]
        | line :: lines => (byte :: line) :: lines)
    []

def beginning : List UInt8 := Wire.Utf8.encode "-----BEGIN "

def ending : List UInt8 := Wire.Utf8.encode "-----END "

def dashes : List UInt8 := Wire.Utf8.encode "-----"

def knownLabels : List (List UInt8) :=
  ["CERTIFICATE", "PUBLIC KEY", "RSA PRIVATE KEY", "PRIVATE KEY", "EC PRIVATE KEY", "X509 CRL",
    "CERTIFICATE REQUEST", "ECHCONFIG"].map Wire.Utf8.encode

def certificateLabel : List UInt8 := Wire.Utf8.encode "CERTIFICATE"

/-- The label on a line that begins a section; the line ends in exactly five dashes, blanks and line
ends apart. -/
def label (line : List UInt8) : Except Fault (List UInt8) :=
  let back := line.reverse
  let blank := fun byte => byte = newline ∨ byte = carriageReturn ∨ byte = space
  let trailer := back.takeWhile fun byte => byte = dash ∨ blank byte
  if trailer.count dash = 5 then
    let reach := (trailer.reverse.dropWhile fun byte => byte ≠ dash).length
    .ok ((line.take (line.length - reach)).drop beginning.length)
  else .error (.illegalSectionStart line)

/-- The contents of the certificate sections before the first fault, and that fault. `open?` is the
label of the section that the lines are in, `inside` what of its contents has been seen. -/
def certificates (open? : Option (List UInt8)) (inside : List UInt8) :
    List (List UInt8) → List (List UInt8) × Option Fault
  | [] => ([], open?.map .missingSectionEnd)
  | line :: rest =>
    if beginning.isPrefixOf line then
      match label line with
      | .error fault => ([], some fault)
      | .ok label => certificates (some label) inside rest
    else
      match open? with
      | none => certificates none inside rest
      | some label =>
        if (ending ++ label ++ dashes).isPrefixOf line then
          if label ∈ knownLabels then
            match Base64.decode inside with
            | .error fault => ([], some (.badBase64 fault))
            | .ok contents =>
              match certificates none [] rest with
              | (found, fault?) =>
                (if label = certificateLabel then contents :: found else found, fault?)
          else certificates none [] rest
        else certificates (some label) (inside ++ line) rest

end Pem

end SegmentClient.TrustStore
