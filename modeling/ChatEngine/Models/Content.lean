import Mathlib.Data.List.Sort
import Mathlib.Data.String.Basic
import ChatEngine.Lib.Text

/-!
# Message content and its validators

The values a message carries besides its text, with the checks every write and
every read of a message applies to them:

* metadata, a JSON object of scalars (`validateMessageMetadata`);
* attachment references (`AttachmentReference.validate`,
  `validateAttachmentReferences`);
* mentioned subjects (`validateMentionedSubjects`);
* reaction summaries (`ReactionSummary.validate`).

A JSON value is kept as the text `json.dumps` gives it with
`ensure_ascii=False` and the separators `,` and `:`, since only its encoded
size matters.
-/

namespace ChatEngine
namespace Models

open Lib

/-- A microsecond count since the epoch.  The ISO texts the stores write for
UTC datetimes compare as these numbers do. -/
abbrev Timestamp := Int

/-- `timedelta(days=…)`. -/
def days (n : Nat) : Int := (n : Int) * 86_400_000_000

/-- `timedelta(seconds=…)`. -/
def seconds (n : Nat) : Int := (n : Int) * 1_000_000

/-- The first failure of a model's validation: the field and the text. -/
structure ValidationError where
  loc : String
  message : String
  deriving DecidableEq, Repr

/-- Validate the items of a list one after the other. -/
def validateEach {α : Type} (f : α → Except ValidationError α) :
    List α → Except ValidationError (List α)
  | [] => .ok []
  | a :: rest =>
      match f a with
      | .error e => .error e
      | .ok b =>
          match validateEach f rest with
          | .error e => .error e
          | .ok bs => .ok (b :: bs)

/-! ## Character classes -/

/-- The Unicode property `White_Space`, which `str_strip_whitespace` trims. -/
def isWhiteSpace (c : Char) : Bool :=
  let n := c.toNat
  (0x09 ≤ n && n ≤ 0x0d) || n == 0x20 || n == 0x85 || n == 0xa0 || n == 0x1680 ||
    (0x2000 ≤ n && n ≤ 0x200a) || n == 0x2028 || n == 0x2029 || n == 0x202f ||
    n == 0x205f || n == 0x3000

/-- `str.isspace` of one character: `White_Space` and the four separators. -/
def isSpace (c : Char) : Bool :=
  isWhiteSpace c || (0x1c ≤ c.toNat && c.toNat ≤ 0x1f)

/-- What pydantic does to every string field of an `APIModel`. -/
def stripWhitespace (s : String) : String := strip isWhiteSpace s

/-- Python's `str.strip()`. -/
def pyStrip (s : String) : String := strip isSpace s

def isLower (c : Char) : Bool := 'a' ≤ c && c ≤ 'z'

def isUpper (c : Char) : Bool := 'A' ≤ c && c ≤ 'Z'

def isDigit (c : Char) : Bool := '0' ≤ c && c ≤ '9'

/-- A text of one `head` character and at most `maxTail` `tail` characters. -/
def matchesKey (head tail : Char → Bool) (maxTail : Nat) (s : String) : Bool :=
  match s.toList with
  | [] => false
  | c :: cs => head c && decide (cs.length ≤ maxTail) && cs.all tail

/-- `ROOM_ID_PATTERN`. -/
def matchesRoomId (s : String) : Bool :=
  matchesKey (fun c => isLower c || isDigit c)
    (fun c => isLower c || isDigit c || c == '_' || c == '-') 63 s

/-- `REACTION_KEY_PATTERN`. -/
def matchesReactionKey (s : String) : Bool :=
  matchesKey (fun c => isLower c || isDigit c)
    (fun c => isLower c || isDigit c || c == '_' || c == '+' || c == '-') 29 s

/-- `MESSAGE_METADATA_KEY_PATTERN`. -/
def matchesMetadataKey (s : String) : Bool :=
  matchesKey isLower
    (fun c => isLower c || isDigit c || c == '_' || c == '.' || c == '-') 63 s

/-- `ATTACHMENT_ID_PATTERN`. -/
def matchesAttachmentId (s : String) : Bool :=
  matchesKey (fun c => isUpper c || isLower c || isDigit c)
    (fun c => isUpper c || isLower c || isDigit c ||
      c == '.' || c == '_' || c == ':' || c == '-') 127 s

/-- One side of `ATTACHMENT_MEDIA_TYPE_PATTERN`. -/
def matchesMediaTypePart (s : String) : Bool :=
  matchesKey (fun c => isLower c || isDigit c)
    (fun c => isLower c || isDigit c || c == '!' || c == '#' || c == '$' || c == '&' ||
      c == '^' || c == '_' || c == '.' || c == '+' || c == '-') 62 s

/-- `ATTACHMENT_MEDIA_TYPE_PATTERN`: two parts around the only slash. -/
def matchesMediaType (s : String) : Bool :=
  match s.toList.span (· != '/') with
  | (kind, '/' :: subtype) =>
      matchesMediaTypePart (String.ofList kind) && matchesMediaTypePart (String.ofList subtype)
  | _ => false

/-- `ATTACHMENT_SHA256_PATTERN`. -/
def matchesSha256 (s : String) : Bool :=
  decide (s.toList.length = 64) &&
    s.toList.all fun c => ('a' ≤ c && c ≤ 'f') || isDigit c

/-! ## JSON text -/

/-- One hexadecimal digit of an escape. -/
def hexDigit (n : Nat) : Char :=
  if n < 10 then Char.ofNat (48 + n) else Char.ofNat (87 + n)

/-- How `json.dumps` writes one character without `ensure_ascii`. -/
def dumpsChar (c : Char) : String :=
  if c = '\"' then "\\\""
  else if c = '\\' then "\\\\"
  else if c = '\n' then "\\n"
  else if c = '\r' then "\\r"
  else if c = '\t' then "\\t"
  else if c.toNat = 8 then "\\b"
  else if c.toNat = 12 then "\\f"
  else if c.toNat < 32 then
    "\\u00" ++ String.ofList [hexDigit (c.toNat / 16), hexDigit (c.toNat % 16)]
  else c.toString

def dumpsString (s : String) : String :=
  "\"" ++ String.join (s.toList.map dumpsChar) ++ "\""

def dumpsOptionString : Option String → String
  | none => "null"
  | some s => dumpsString s

def dumpsArray (items : List String) : String :=
  "[" ++ ",".intercalate items ++ "]"

def dumpsObject (fields : List (String × String)) : String :=
  "\x7b" ++ ",".intercalate (fields.map fun field => dumpsString field.1 ++ ":" ++ field.2)
    ++ "\x7d"

/-! ## Metadata -/

/-- A Python float: its exact value when it is finite, and its `repr`. -/
structure PyFloat where
  value : Option Rat
  repr : String
  deriving DecidableEq, Repr

/-- `str | int | float | bool | None`. -/
inductive MetadataValue where
  | null
  | bool (b : Bool)
  | int (n : Int)
  | float (x : PyFloat)
  | str (s : String)
  deriving DecidableEq, Repr

/-- A dictionary in insertion order. -/
abbrev MessageMetadata := List (String × MetadataValue)

def metadataMaxKeys : Nat := 20

def metadataMaxBytes : Nat := 4_096

def metadataMaxSafeInteger : Nat := 9_007_199_254_740_991

/-- `d[key] = value`. -/
def dictSet (key : String) (value : MetadataValue) : MessageMetadata → MessageMetadata
  | [] => [(key, value)]
  | entry :: rest =>
      if entry.1 = key then (key, value) :: rest else entry :: dictSet key value rest

/-- `str_strip_whitespace` reaches the keys and the string values of the field. -/
def stripMetadataValue : MetadataValue → MetadataValue
  | .str s => .str (stripWhitespace s)
  | value => value

def stripMetadata (value : MessageMetadata) : MessageMetadata :=
  value.foldl (fun acc entry =>
    dictSet (stripWhitespace entry.1) (stripMetadataValue entry.2) acc) []

/-- `sorted(value.items())`, also `sort_keys=True`. -/
def sortKeys (value : MessageMetadata) : MessageMetadata :=
  value.insertionSort fun a b => a.1 ≤ b.1

def dumpsMetadataValue : MetadataValue → String
  | .null => "null"
  | .bool b => if b then "true" else "false"
  | .int n => toString n
  | .float x => x.repr
  | .str s => dumpsString s

def dumpsMetadata (value : MessageMetadata) : String :=
  dumpsObject (value.map fun entry => (entry.1, dumpsMetadataValue entry.2))

/-- What `validate_message_metadata` raises for one entry. -/
def metadataEntryError (entry : String × MetadataValue) : Option String :=
  if ¬ matchesMetadataKey entry.1 then
    some "metadata keys must be 1-64 lowercase ASCII key characters"
  else
    match entry.2 with
    | .null | .bool _ | .str _ => none
    | .int n =>
        if metadataMaxSafeInteger < n.natAbs then
          some "metadata integers must be exactly representable by JavaScript"
        else none
    | .float x =>
        match x.value with
        | none => some "metadata numbers must be finite"
        | some q =>
            if q.den = 1 ∧ metadataMaxSafeInteger < q.num.natAbs then
              some "metadata integers must be exactly representable by JavaScript"
            else none

/-- `validate_message_metadata`. -/
def validateMessageMetadata (value : MessageMetadata) :
    Except ValidationError MessageMetadata :=
  if metadataMaxKeys < value.length then
    .error ⟨"metadata", "metadata must contain at most 20 keys"⟩
  else
    match (sortKeys value).findSome? metadataEntryError with
    | some message => .error ⟨"metadata", message⟩
    | none =>
        if metadataMaxBytes < (dumpsMetadata (sortKeys value)).utf8ByteSize then
          .error ⟨"metadata", "metadata must not exceed 4096 UTF-8 JSON bytes"⟩
        else .ok (sortKeys value)

/-! ## Attachment references -/

/-- A bounded opaque reference to one host-application-owned file. -/
structure AttachmentReference where
  id : String
  name : String
  mediaType : String
  sizeBytes : Int
  sha256 : Option String := none
  deriving DecidableEq, Repr

def attachmentsMaxCount : Nat := 5

def attachmentsMaxBytes : Nat := 8_192

def AttachmentReference.strip (a : AttachmentReference) : AttachmentReference :=
  { a with
    id := stripWhitespace a.id
    name := stripWhitespace a.name
    mediaType := stripWhitespace a.mediaType
    sha256 := a.sha256.map stripWhitespace }

/-- The constraints of one stripped attachment reference. -/
def AttachmentReference.error? (a : AttachmentReference) : Option ValidationError :=
  if ¬ matchesAttachmentId a.id then
    some ⟨"id", "String should match the attachment ID pattern"⟩
  else if ¬ (1 ≤ a.name.length ∧ a.name.length ≤ 255) then
    some ⟨"name", "String should have 1 to 255 characters"⟩
  else if a.name.toList.any fun c => decide (c.toNat < 32) || decide (c.toNat = 127) then
    some ⟨"name", "attachment names must not contain control characters"⟩
  else if ¬ (3 ≤ a.mediaType.length ∧ a.mediaType.length ≤ 127 ∧
      matchesMediaType a.mediaType) then
    some ⟨"media_type", "String should match the media type pattern"⟩
  else if ¬ (0 ≤ a.sizeBytes ∧ a.sizeBytes ≤ metadataMaxSafeInteger) then
    some ⟨"size_bytes", "Input should be between 0 and 9007199254740991"⟩
  else if a.sha256.any fun digest => !matchesSha256 digest then
    some ⟨"sha256", "String should match the SHA-256 pattern"⟩
  else none

/-- `AttachmentReference.model_validate`. -/
def AttachmentReference.validate (a : AttachmentReference) :
    Except ValidationError AttachmentReference :=
  match a.strip.error? with
  | some e => .error e
  | none => .ok a.strip

def dumpsAttachment (a : AttachmentReference) : String :=
  dumpsObject [("id", dumpsString a.id), ("media_type", dumpsString a.mediaType),
    ("name", dumpsString a.name), ("sha256", dumpsOptionString a.sha256),
    ("size_bytes", toString a.sizeBytes)]

def dumpsAttachments (value : List AttachmentReference) : String :=
  dumpsArray (value.map dumpsAttachment)

/-- `validate_attachment_references`. -/
def validateAttachmentReferences (value : List AttachmentReference) :
    Except ValidationError (List AttachmentReference) :=
  if attachmentsMaxCount < value.length then
    .error ⟨"attachments", "attachments must contain at most 5 items"⟩
  else if ¬ (value.map AttachmentReference.id).Nodup then
    .error ⟨"attachments", "attachment IDs must be unique within a message"⟩
  else if attachmentsMaxBytes < (dumpsAttachments value).utf8ByteSize then
    .error ⟨"attachments", "attachments must not exceed 8192 UTF-8 JSON bytes"⟩
  else .ok value

/-! ## Mentioned subjects -/

def mentionsMaxCount : Nat := 10

/-- `validate_mentioned_subjects` of a list of strings. -/
def validateMentionedSubjects (value : List String) : Except ValidationError (List String) :=
  if mentionsMaxCount < value.length then
    .error ⟨"mentioned_subjects", "mentioned_subjects must contain at most 10 items"⟩
  else if ¬ ∀ subject ∈ value, 1 ≤ subject.length ∧ subject.length ≤ 64 then
    .error ⟨"mentioned_subjects", "mentioned subjects must be between 1 and 64 characters"⟩
  else if ¬ ∀ subject ∈ value, subject = pyStrip subject then
    .error ⟨"mentioned_subjects", "mentioned subjects must not have surrounding whitespace"⟩
  else if ¬ value.Nodup then
    .error ⟨"mentioned_subjects", "mentioned_subjects must not contain duplicates"⟩
  else .ok value

def dumpsMentions (value : List String) : String :=
  dumpsArray (value.map dumpsString)

/-! ## Reaction summaries -/

/-- A stable reaction key and its current distinct-reactor count. -/
structure ReactionSummary where
  key : String
  count : Int
  deriving DecidableEq, Repr

/-- `ReactionSummary.model_validate`. -/
def ReactionSummary.validate (r : ReactionSummary) : Except ValidationError ReactionSummary :=
  if ¬ matchesReactionKey (stripWhitespace r.key) then
    .error ⟨"key", "String should match the reaction key pattern"⟩
  else if r.count < 1 then
    .error ⟨"count", "Input should be greater than or equal to 1"⟩
  else .ok { r with key := stripWhitespace r.key }

end Models
end ChatEngine
