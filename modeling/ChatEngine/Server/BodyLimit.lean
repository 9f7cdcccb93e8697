import ChatEngine.Lib.Spelling
import ChatEngine.Models.Payloads
import ChatEngine.Models.Sizes

/-!
# The request body limit

The application bounds the bytes of a request body before the body is parsed.

* `RequestBodyLimitMiddleware.rejects` and `maxBodyBytes`, the middleware and its bound;
* `requestTokens`, the body of a message, whose strings may be written in any way JSON has;
* `body_limit`: no way to write and send the body is rejected exactly where the longest one fits.
-/

namespace ChatEngine
namespace Server

open Lib
open Models

/-! ## The middleware -/

/-- `limited_receive` raises at one of the chunks of the body. -/
def overruns (maxBodyBytes : Nat) (received : Nat) : List Nat → Bool
  | [] => false
  | chunk :: rest =>
      decide (maxBodyBytes < received + chunk) || overruns maxBodyBytes (received + chunk) rest

/-- `RequestBodyLimitMiddleware`: the response is 413, for a `content-length` header that is an
integer, or not there, and the sizes of the chunks. -/
def RequestBodyLimitMiddleware.rejects (maxBodyBytes : Nat) (contentLength : Option Int)
    (chunks : List Nat) : Bool :=
  (contentLength.any fun length => (maxBodyBytes : Int) < length) || overruns maxBodyBytes 0 chunks

/-- The bound that the application computes from `max_message_chars`. -/
def maxBodyBytes (maxMessageChars : Nat) : Nat := max 24_576 (maxMessageChars * 12 + 20_480)

theorem overruns_iff {maxBodyBytes received : Nat} {chunks : List Nat}
    (h : received ≤ maxBodyBytes) :
    overruns maxBodyBytes received chunks = true ↔ maxBodyBytes < received + chunks.sum := by
  induction chunks generalizing received with
  | nil => simpa [overruns] using h
  | cons chunk rest ih =>
      rw [overruns, Bool.or_eq_true, decide_eq_true_eq, List.sum_cons]
      by_cases hchunk : maxBodyBytes < received + chunk
      · exact iff_of_true (.inl hchunk) (by omega)
      · rw [or_iff_right hchunk, ih (Nat.le_of_not_lt hchunk), Nat.add_assoc]

/-- How a body of a size arrives. -/
def Arrives (size : Nat) (contentLength : Option Int) (chunks : List Nat) : Prop :=
  (contentLength = none ∨ contentLength = some (size : Int)) ∧ chunks.sum = size

/-- In one chunk, without the header. -/
theorem arrives_whole (size : Nat) : Arrives size none [size] := ⟨.inl rfl, Nat.add_zero _⟩

theorem rejects_iff {maxBodyBytes size : Nat} {contentLength : Option Int} {chunks : List Nat}
    (h : Arrives size contentLength chunks) :
    RequestBodyLimitMiddleware.rejects maxBodyBytes contentLength chunks = true ↔
      maxBodyBytes < size := by
  obtain ⟨hheader, hsum⟩ := h
  have hchunks : overruns maxBodyBytes 0 chunks = true ↔ _ :=
    overruns_iff (Nat.zero_le maxBodyBytes)
  rw [Nat.zero_add, hsum] at hchunks
  rw [RequestBodyLimitMiddleware.rejects, Bool.or_eq_true, hchunks]
  rcases hheader with rfl | rfl
  · simp
  · simp

/-! ## The body of a message -/

/-- A member that may be left out where it has its default. -/
def member (omits : String → Bool) (name : String) (default : Bool) (value : List Token) :
    List (String × List Token) :=
  if default = true ∧ omits name = true then [] else [(name, value)]

def optionTokens : Option String → List Token
  | none => [.fixed "null"]
  | some s => [.str s]

/-- A string may be escaped; any other scalar has its text. -/
def scalarTokens : MetadataValue → List Token
  | .str s => [.str s]
  | value => [.fixed (dumpsMetadataValue value)]

def metadataTokens (v : MessageMetadata) : List Token :=
  objectTokens (v.map fun entry => (entry.1, scalarTokens entry.2))

def attachmentTokens (omits : String → Bool) (a : AttachmentReference) : List Token :=
  objectTokens
    (member omits "id" false [.str a.id] ++ member omits "name" false [.str a.name] ++
      member omits "media_type" false [.str a.mediaType] ++
      member omits "size_bytes" false [.fixed (toString a.sizeBytes)] ++
      member omits "sha256" a.sha256.isNone (optionTokens a.sha256))

/-- The body of a `MessageCreate`; `omits` says which defaults the client leaves out. -/
def requestTokens (omits : String → Bool) (p : MessageCreate) : List Token :=
  objectTokens
    (member omits "content" (p.content = "") [.str p.content] ++
      member omits "sender" p.sender.isNone (optionTokens p.sender) ++
      member omits "client_message_id" p.clientMessageId.isNone (optionTokens p.clientMessageId) ++
      member omits "parent_message_id" p.parentMessageId.isNone (optionTokens p.parentMessageId) ++
      member omits "metadata" (p.metadata = []) (metadataTokens p.metadata) ++
      member omits "attachments" (p.attachments = [])
        (arrayTokens (p.attachments.map (attachmentTokens omits))) ++
      member omits "mentioned_subjects" (p.mentionedSubjects = [])
        (arrayTokens (p.mentionedSubjects.map fun subject => [.str subject])))

/-- The bytes of the body with every member, each character of each string escaped. -/
def longestBody (p : MessageCreate) : Nat := totalSize longest (requestTokens (fun _ => false) p)

theorem membersCost_member (omits : String → Bool) (name : String) (default : Bool)
    {value value' : List Token} (h : totalSize longest value ≤ totalSize longest value') :
    membersCost longest (member omits name default value) ≤
      membersCost longest (member (fun _ => false) name default value') := by
  have hkept : member (fun _ => false) name default value' = [(name, value')] :=
    if_neg fun hboth => Bool.false_ne_true hboth.2
  rw [hkept]
  unfold member
  split_ifs
  · exact Nat.zero_le _
  · simp only [membersCost, List.map_cons, List.map_nil, List.sum_cons, List.sum_nil]
    omega

theorem totalSize_attachmentTokens (omits : String → Bool) (a : AttachmentReference) :
    totalSize longest (attachmentTokens omits a) ≤
      totalSize longest (attachmentTokens (fun _ => false) a) := by
  have hcost := membersCost_member omits "sha256" a.sha256.isNone
    (Nat.le_refl (totalSize longest (optionTokens a.sha256)))
  unfold attachmentTokens
  rw [totalSize_objectTokens, totalSize_objectTokens]
  simp only [membersCost_append]
  have hfixed : ∀ (name : String) (value : List Token),
      membersCost longest (member omits name false value) =
        membersCost longest (member (fun _ => false) name false value) := fun _ _ => rfl
  simp only [hfixed]
  omega

/-- No other choice of members makes the body longer. -/
theorem totalSize_requestTokens (omits : String → Bool) (p : MessageCreate) :
    totalSize longest (requestTokens omits p) ≤ longestBody p := by
  have hattachments : totalSize longest (arrayTokens (p.attachments.map (attachmentTokens omits))) ≤
      totalSize longest (arrayTokens (p.attachments.map (attachmentTokens fun _ => false))) := by
    have hsum := List.sum_le_sum (l := p.attachments)
      (f := fun a => totalSize longest (attachmentTokens omits a))
      (g := fun a => totalSize longest (attachmentTokens (fun _ => false) a))
      (fun a _ => totalSize_attachmentTokens omits a)
    rw [totalSize_arrayTokens, totalSize_arrayTokens, List.map_map, List.map_map, List.length_map,
      List.length_map]
    simp only [Function.comp_def]
    omega
  unfold longestBody requestTokens
  rw [totalSize_objectTokens, totalSize_objectTokens]
  simp only [membersCost_append]
  have hkept := fun (name : String) (default : Bool) (value : List Token) =>
    membersCost_member omits name default (Nat.le_refl (totalSize longest value))
  have h1 := hkept "content" (p.content = "") [.str p.content]
  have h2 := hkept "sender" p.sender.isNone (optionTokens p.sender)
  have h3 := hkept "client_message_id" p.clientMessageId.isNone (optionTokens p.clientMessageId)
  have h4 := hkept "parent_message_id" p.parentMessageId.isNone (optionTokens p.parentMessageId)
  have h5 := hkept "metadata" (p.metadata = []) (metadataTokens p.metadata)
  have h6 := membersCost_member omits "attachments" (p.attachments = []) hattachments
  have h7 := hkept "mentioned_subjects" (p.mentionedSubjects = [])
    (arrayTokens (p.mentionedSubjects.map fun subject => [.str subject]))
  omega

/-- However the client writes the strings of the payload, whichever defaults it leaves out, and
however the body arrives, it is not rejected, exactly where the longest body is within the bound. -/
theorem body_limit (maxMessageChars : Nat) (p : MessageCreate) :
    (∀ omits body contentLength chunks, Spells (requestTokens omits p) body →
      Arrives (bytes body) contentLength chunks →
      RequestBodyLimitMiddleware.rejects (maxBodyBytes maxMessageChars) contentLength chunks =
        false) ↔
      longestBody p ≤ maxBodyBytes maxMessageChars := by
  constructor
  · intro h
    obtain ⟨body, hbody, hsize⟩ := exists_spells_longest (requestTokens (fun _ => false) p)
    have harrives := arrives_whole (bytes body)
    have hpasses := h (fun _ => false) body none [bytes body] hbody harrives
    by_contra hlong
    have hrejects := (rejects_iff harrives).mpr
      (show maxBodyBytes maxMessageChars < bytes body by
        rw [hsize]
        exact Nat.lt_of_not_le hlong)
    rw [hpasses] at hrejects
    cases hrejects
  · intro h omits body contentLength chunks hbody harrives
    rw [← Bool.not_eq_true, rejects_iff harrives, Nat.not_lt]
    exact hbody.bytes_le.trans ((totalSize_requestTokens omits p).trans h)

/-! ## A message that is rejected -/

/-- A character outside the basic plane: four bytes in UTF-8, twelve as an escaped pair. -/
def face : Char := Char.ofNat 0x1F600

@[irreducible] def faces (n : Nat) : String := String.ofList (List.replicate n face)

def portrait (id : String) : AttachmentReference where
  id := id
  name := faces 255
  mediaType := "a/a"
  sizeBytes := 0

def portraitIds : List String := ["a", "b", "c", "d", "e"]

/-- No content, metadata of 4008 bytes in UTF-8, and five attachments. -/
def portraits : MessageCreate where
  metadata := [("a", .str (faces 1_000))]
  attachments := portraitIds.map portrait

/-- The character as the service stores it and as a client may escape it. -/
theorem face_bytes : (dumpsChar face).utf8ByteSize = 4 ∧ bytes (asciiSpelling face) = 12 := by
  decide +kernel

/-- What the validation computes of the short texts in the payload. -/
theorem short_texts :
    (∀ i ∈ portraitIds, stripWhitespace i = i ∧ matchesAttachmentId i = true ∧
      (dumpsString i).utf8ByteSize ≤ 3) ∧
    (stripWhitespace "a/a" = "a/a" ∧ matchesMediaType "a/a" = true ∧
      ("a/a" : String).length = 3) ∧
    (stripWhitespace "a" = "a" ∧ matchesMetadataKey "a" = true ∧
      (dumpsString "a").utf8ByteSize = 3) ∧
    ((dumpsString "id").utf8ByteSize = 4 ∧ (dumpsString "media_type").utf8ByteSize = 12 ∧
      (dumpsString "name").utf8ByteSize = 6 ∧ (dumpsString "sha256").utf8ByteSize = 8 ∧
      (dumpsString "size_bytes").utf8ByteSize = 12 ∧ (dumpsString "a/a").utf8ByteSize = 5 ∧
      (dumpsOptionString none).utf8ByteSize = 4 ∧ (toString (0 : Int)).utf8ByteSize = 1) ∧
    stripWhitespace "" = "" := by
  decide +kernel

theorem stripWhitespace_faces (n : Nat) : stripWhitespace (faces n) = faces n := by
  have hface : isWhiteSpace face = false := by decide
  unfold stripWhitespace
  rw [strip_eq_self_iff, faces, String.toList_ofList]
  constructor
  · intro c hc
    rw [List.eq_of_mem_replicate (List.mem_of_mem_head? hc), hface]
  · intro c hc
    rw [List.eq_of_mem_replicate (List.mem_of_mem_getLast? hc), hface]

theorem utf8ByteSize_dumpsString_faces (n : Nat) :
    (dumpsString (faces n)).utf8ByteSize = n * 4 + 2 := by
  rw [faces]
  exact utf8ByteSize_dumpsString_replicate face_bytes.1 n

theorem length_faces (n : Nat) : (faces n).length = n := by
  rw [faces, String.length_ofList, List.length_replicate]

theorem validate_portrait {id : String} (h : id ∈ portraitIds) :
    (portrait id).validate = .ok (portrait id) := by
  obtain ⟨hid, hmedia, -⟩ := short_texts
  have hstrip : (portrait id).strip = portrait id := by
    simp only [AttachmentReference.strip, portrait, (hid id h).1, hmedia.1, stripWhitespace_faces,
      Option.map_none]
  have hcontrol : (faces 255).toList.any
      (fun c => decide (c.toNat < 32) || decide (c.toNat = 127)) = false := by
    have hface : (decide (face.toNat < 32) || decide (face.toNat = 127)) = false := by decide
    rw [faces, String.toList_ofList, List.any_eq_false]
    intro c hc
    rw [List.eq_of_mem_replicate hc, hface]
    exact Bool.false_ne_true
  unfold AttachmentReference.validate
  rw [hstrip]
  unfold AttachmentReference.error?
  simp only [portrait, (hid id h).2.1, length_faces, hcontrol, hmedia.2.1, hmedia.2.2]
  rfl

theorem validateEach_of_forall {α : Type} {f : α → Except ValidationError α} {l : List α}
    (h : ∀ a ∈ l, f a = .ok a) : validateEach f l = .ok l := by
  induction l with
  | nil => rfl
  | cons a rest ih =>
      rw [validateEach, h a List.mem_cons_self, ih fun b hb => h b (List.mem_cons_of_mem a hb)]

theorem portraits_metadata : NormalMetadata portraits.metadata := by
  obtain ⟨-, -, hkey, -⟩ := short_texts
  have hstripped : StrippedMetadata portraits.metadata := by
    refine ⟨List.nodup_singleton _, ?_⟩
    intro entry hmem
    rw [List.mem_singleton.mp hmem]
    refine ⟨hkey.1, ?_⟩
    rw [stripMetadataValue, stripWhitespace_faces]
  have herror : metadataEntryError ("a", .str (faces 1_000)) = none := by
    simp [metadataEntryError, hkey.2.1]
  have hsize : (dumpsMetadata portraits.metadata).utf8ByteSize = 4_008 := by
    simp [dumpsMetadata, utf8ByteSize_dumpsObject, portraits, dumpsMetadataValue,
      utf8ByteSize_dumpsString_faces, hkey.2.2]
  refine ⟨hstripped, ?_⟩
  have hsorted : sortKeys portraits.metadata = portraits.metadata := 
    List.Pairwise.insertionSort_eq (List.pairwise_singleton _ _)
  have hfits : ¬ metadataMaxBytes < 4_008 := by decide
  have hcount : ¬ metadataMaxKeys < portraits.metadata.length := by
    show ¬ 20 < 1
    decide
  have hentries : portraits.metadata.findSome? metadataEntryError = none := by
    rw [List.findSome?_eq_none_iff]
    intro entry hmem
    rw [List.mem_singleton.mp hmem]
    exact herror
  unfold validateMessageMetadata
  rw [if_neg hcount, hsorted, hentries, hsize]
  exact if_neg hfits

theorem utf8ByteSize_dumpsAttachment_portrait {id : String} (h : id ∈ portraitIds) :
    (dumpsAttachment (portrait id)).utf8ByteSize ≤ 1_200 := by
  obtain ⟨hids, -, -, hnames, -⟩ := short_texts
  have hid := (hids id h).2.2
  obtain ⟨h1, h2, h3, h4, h5, h6, h7, h8⟩ := hnames
  simp only [dumpsAttachment, utf8ByteSize_dumpsObject, portrait, List.map_cons, List.map_nil,
    List.sum_cons, List.sum_nil, List.length_cons, List.length_nil,
    utf8ByteSize_dumpsString_faces, h1, h2, h3, h4, h5, h6, h7, h8]
  omega

/-- Attachments that each take at most a number of bytes. -/
theorem utf8ByteSize_dumpsAttachments_le {l : List AttachmentReference} (bound : Nat)
    (h : ∀ a ∈ l, (dumpsAttachment a).utf8ByteSize ≤ bound) :
    (dumpsAttachments l).utf8ByteSize ≤ l.length * bound + l.length + 2 := by
  have hsum := List.sum_le_card_nsmul (l.map fun a => (dumpsAttachment a).utf8ByteSize) bound (by
    intro n hn
    obtain ⟨a, ha, rfl⟩ := List.mem_map.mp hn
    exact h a ha)
  rw [List.length_map, Nat.nsmul_eq_mul] at hsum
  rw [dumpsAttachments, utf8ByteSize_dumpsArray, List.map_map, List.length_map]
  simp only [Function.comp_def]
  omega

theorem portraits_attachments : NormalAttachments portraits.attachments := by
  have heach : validateEach AttachmentReference.validate portraits.attachments =
      .ok portraits.attachments := by
    apply validateEach_of_forall
    intro a ha
    obtain ⟨id, hid, rfl⟩ := List.mem_map.mp ha
    exact validate_portrait hid
  have hcount : ¬ attachmentsMaxCount < portraits.attachments.length := by
    show ¬ 5 < 5
    decide
  have hids : portraits.attachments.map AttachmentReference.id = portraitIds := rfl
  have hnodup : ¬ ¬ portraitIds.Nodup := by decide
  have hsize : (dumpsAttachments portraits.attachments).utf8ByteSize ≤ attachmentsMaxBytes := by
    refine Nat.le_trans (utf8ByteSize_dumpsAttachments_le 1_200 ?_) ?_
    · intro a ha
      obtain ⟨id, hid, rfl⟩ := List.mem_map.mp ha
      exact utf8ByteSize_dumpsAttachment_portrait hid
    · show 5 * 1_200 + 5 + 2 ≤ 8_192
      decide
  refine ⟨heach, ?_⟩
  unfold validateAttachmentReferences
  rw [if_neg hcount, hids, if_neg hnodup, if_neg (Nat.not_lt.mpr hsize)]

/-- A payload in the form that its validation leaves is accepted as it is. -/
theorem build_of_normal {p : MessageCreate} (h : p.Normal) (hfields : p.stripFields = p)
    (hlengths : p.fieldError? = none) (hattached : p.attachments ≠ []) : p.build = .ok p := by
  unfold MessageCreate.build
  rw [hfields, hlengths, h.metadata.stripMetadata_eq, h.metadata.valid, h.attachments.each]
  dsimp only
  rw [h.attachments.valid, h.mentions.valid]
  dsimp only
  rw [if_neg fun hboth => hattached hboth.2, h.mentions.stripped]

theorem build_portraits : portraits.build = .ok portraits := by
  obtain ⟨-, -, -, -, hempty⟩ := short_texts
  refine build_of_normal ⟨portraits_metadata, portraits_attachments, .nil⟩ ?_ ?_ ?_
  · simp only [MessageCreate.stripFields, portraits, hempty, Option.map_none]
  · simp only [MessageCreate.fieldError?, portraits]
    rfl
  · exact List.cons_ne_nil _ _

/-- The metadata and the names of the attachments are in the body. -/
theorem le_totalSize_requestTokens (weight : Char → Nat) (omits : String → Bool) {p : MessageCreate}
    (hmetadata : p.metadata ≠ []) (hattachments : p.attachments ≠ []) :
    totalSize weight (metadataTokens p.metadata) +
      (p.attachments.map fun a => (Token.str a.name).size weight).sum ≤
        totalSize weight (requestTokens omits p) := by
  have hname : ∀ a : AttachmentReference,
      (Token.str a.name).size weight ≤ totalSize weight (attachmentTokens omits a) := by
    intro a
    have hcost : membersCost weight (member omits "name" false [.str a.name]) =
        (Token.str "name").size weight + 1 + ((Token.str a.name).size weight + 0) + 1 + 0 := rfl
    unfold attachmentTokens
    rw [totalSize_objectTokens]
    simp only [membersCost_append, hcost]
    omega
  have hnames : (p.attachments.map fun a => (Token.str a.name).size weight).sum ≤
      totalSize weight (arrayTokens (p.attachments.map (attachmentTokens omits))) := by
    have hsum := List.sum_le_sum (l := p.attachments) (fun a _ => hname a)
    rw [totalSize_arrayTokens, List.map_map, List.length_map]
    simp only [Function.comp_def]
    omega
  have hkept : ∀ (name : String) (value : List Token),
      membersCost weight (member omits name false value) =
        (Token.str name).size weight + 1 + totalSize weight value + 1 + 0 := fun _ _ => rfl
  unfold requestTokens
  rw [totalSize_objectTokens, decide_eq_false hmetadata, decide_eq_false hattachments]
  simp only [membersCost_append, hkept]
  omega

theorem size_faces (n : Nat) :
    (Token.str (faces n)).size (fun c => bytes (asciiSpelling c)) = n * 12 + 2 := by
  rw [Token.size, faces, String.toList_ofList, List.map_replicate, List.sum_replicate,
    face_bytes.2, Nat.nsmul_eq_mul]

theorem size_le_metadataTokens (weight : Char → Nat) (key s : String) :
    (Token.str s).size weight ≤ totalSize weight (metadataTokens [(key, .str s)]) := by
  rw [metadataTokens, totalSize_objectTokens]
  simp only [List.map_cons, List.map_nil, membersCost, scalarTokens, totalSize_cons,
    totalSize_nil, List.sum_cons, List.sum_nil]
  omega

/-- With ASCII escapes, the metadata and the names alone are too long. -/
theorem long_body {p : MessageCreate} (omits : String → Bool)
    (hmetadata : p.metadata = [("a", .str (faces 1_000))])
    (hattachments : p.attachments = portraitIds.map portrait) :
    maxBodyBytes 1 < bytes (writtenBy asciiSpelling (requestTokens omits p)) := by
  have hnames : (p.attachments.map fun a =>
      (Token.str a.name).size fun c => bytes (asciiSpelling c)).sum = 15_310 := by
    simp only [hattachments, portraitIds, portrait, List.map_cons, List.map_nil, size_faces,
      List.sum_cons, List.sum_nil]
    rfl
  have hvalue : 12_002 ≤
      totalSize (fun c => bytes (asciiSpelling c)) (metadataTokens p.metadata) := by
    have hfaces := size_le_metadataTokens (fun c => bytes (asciiSpelling c)) "a" (faces 1_000)
    rw [size_faces] at hfaces
    rw [hmetadata]
    exact hfaces
  have hpresent : p.metadata ≠ [] ∧ p.attachments ≠ [] := by
    rw [hmetadata, hattachments]
    exact ⟨List.cons_ne_nil _ _, List.cons_ne_nil _ _⟩
  have hbody := le_totalSize_requestTokens (fun c => bytes (asciiSpelling c)) omits
    hpresent.1 hpresent.2
  have hlimit : maxBodyBytes 1 = 24_576 := by
    simp [maxBodyBytes]
  rw [bytes_writtenBy, hlimit]
  refine Nat.lt_of_lt_of_le ?_ hbody
  rw [hnames]
  exact Nat.lt_of_lt_of_le (by decide) (Nat.add_le_add_right hvalue _)

theorem not_body_limit :
    ¬ ∀ (maxMessageChars : Nat) (raw p : MessageCreate), 1 ≤ maxMessageChars →
      maxMessageChars ≤ 100_000 → raw.build = .ok p → raw.content.length ≤ maxMessageChars →
      ∀ omits body contentLength chunks, Spells (requestTokens omits raw) body →
        Arrives (bytes body) contentLength chunks →
        RequestBodyLimitMiddleware.rejects (maxBodyBytes maxMessageChars) contentLength chunks =
          false := by
  intro h
  have hcontent : portraits.content.length ≤ 1 := by
    have hempty : portraits.content = "" := rfl
    rw [hempty]
    decide
  have hpasses := h 1 portraits portraits (Nat.le_refl 1) (by decide) build_portraits hcontent
    _ _ none _ (spells_writtenBy spelling_asciiSpelling (requestTokens (fun _ => true) portraits))
    (arrives_whole _)
  rw [(rejects_iff (arrives_whole _)).mpr (long_body (fun _ => true) rfl rfl)] at hpasses
  cases hpasses

end Server
end ChatEngine
