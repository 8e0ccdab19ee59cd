import AdmissionWatch.Text.Base64
import AdmissionWatch.Text.Search

/-!
# Certificates

Certificates as they are kept in files: bytes in base 64 between two lines that name what they are.
Other sections and what stands between sections do not count.
-/

namespace AdmissionWatch.Http

/-- What starts the first line of a section. -/
def sectionStart : List Char := "-----BEGIN ".toList

/-- What starts the last line of a section. -/
def sectionEnd : List Char := "-----END ".toList

/-- What ends the label of a section. -/
def labelEnd : List Char := "-----".toList

/-- A line without the blanks it ends with. -/
def trimLine (line : List Char) : List Char :=
  (line.reverse.dropWhile fun c => c = ' ' || c = '\r').reverse

/-- The label in the first line of a section, without its start. -/
def label? (s : List Char) : Option (List Char) :=
  let hyphens := (s.reverse.takeWhile (· = '-')).length
  if hyphens = labelEnd.length then some (s.take (s.length - hyphens)) else none

/-- A section: its label and what stands in it. -/
abbrev Section := List Char × List Char

/-- The sections that lines hold, after those of an open section; none when one does not end or does
not start as it has to. -/
def sections? : Option Section → List (List Char) → Option (List Section)
  | none, [] => some []
  | some _, [] => none
  | current, line :: rest =>
    let line := trimLine line
    match Text.dropStart? sectionStart line, current with
    | some named, _ => (label? named).bind fun label => sections? (some (label, [])) rest
    | none, none => sections? none rest
    | none, some (label, content) =>
      if (sectionEnd ++ label ++ labelEnd).isPrefixOf line then (sections? none rest).map ((label, content) :: ·)
      else sections? (some (label, content ++ line)) rest

/-- An item in the encoding of certificates: its tag and its content, and what follows it. -/
def item? (bytes : List UInt8) : Option (UInt8 × List UInt8 × List UInt8) :=
  match bytes with
  | tag :: length :: rest =>
    let (size, rest) :=
      if length < 128 then (length.toNat, rest)
      else
        let places := (length - 128).toNat
        ((rest.take places).foldl (fun n b => n * 256 + b.toNat) 0, rest.drop places)
    if size ≤ rest.length then some (tag, rest.take size, rest.drop size) else none
  | _ => none

/-- The tags of so many items, if there are no more and no less. -/
def tags? : Nat → List UInt8 → Option (List UInt8)
  | 0, bytes => if bytes = [] then some [] else none
  | n + 1, bytes => do
    let (tag, _, rest) ← item? bytes
    let tags ← tags? n rest
    return tag :: tags

/-- Whether bytes are made like a certificate: a sequence of two sequences and a string of bits. -/
def isCertificate (bytes : List UInt8) : Bool :=
  match item? bytes with
  | some (0x30, content, []) => tags? 3 content = some [0x30, 0x30, 0x03]
  | _ => false

/-- Whether a file holds certificates, none or more, and each of them can be read. -/
def certificatesAreReadable (file : String) : Bool :=
  match sections? none (Text.pieces '\n' file.toList) with
  | none => false
  | some sections =>
    sections.all fun s => String.ofList s.1 ≠ "CERTIFICATE" || (Text.base64Bytes? s.2).any isCertificate

end AdmissionWatch.Http
