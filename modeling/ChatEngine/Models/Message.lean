import ChatEngine.Models.Content

/-!
# Messages and the results of message operations

* `Message` with pydantic's constructor, `Message.build`: every string field is
  stripped, the validators run, and the pin and tombstone rules are enforced;
* `ReactionMutation`, `PinMutation` and `MemberModeration`, the results the
  other write operations return and the outbox embeds;
* `Room` and the payload that creates one.
-/

namespace ChatEngine
namespace Models

open Lib

/-- A persisted chat message. -/
structure Message where
  id : String
  roomId : String
  sender : String
  content : String
  createdAt : Timestamp
  clientMessageId : Option String := none
  parentMessageId : Option String := none
  reactions : List ReactionSummary := []
  pinnedAt : Option Timestamp := none
  pinnedBy : Option String := none
  metadata : MessageMetadata := []
  attachments : List AttachmentReference := []
  mentionedSubjects : List String := []
  editedAt : Option Timestamp := none
  deletedAt : Option Timestamp := none
  deriving DecidableEq, Repr

/-- `str_strip_whitespace` on the plain string fields. -/
def Message.stripFields (m : Message) : Message :=
  { m with
    id := stripWhitespace m.id
    roomId := stripWhitespace m.roomId
    sender := stripWhitespace m.sender
    content := stripWhitespace m.content
    clientMessageId := m.clientMessageId.map stripWhitespace
    parentMessageId := m.parentMessageId.map stripWhitespace
    pinnedBy := m.pinnedBy.map stripWhitespace }

/-- `require_complete_pin_metadata`. -/
def Message.pinMetadataError? (m : Message) : Option ValidationError :=
  if m.pinnedAt.isNone ≠ m.pinnedBy.isNone then
    some ⟨"", "pinned_at and pinned_by must both be set or both be null"⟩
  else if m.deletedAt.isSome ∧ m.pinnedAt.isSome then
    some ⟨"", "deleted messages cannot remain pinned"⟩
  else if m.deletedAt.isSome ∧ m.metadata ≠ [] then
    some ⟨"", "deleted messages cannot retain application metadata"⟩
  else if m.deletedAt.isSome ∧ m.attachments ≠ [] then
    some ⟨"", "deleted messages cannot retain attachment references"⟩
  else if m.deletedAt.isSome ∧ m.mentionedSubjects ≠ [] then
    some ⟨"", "deleted messages cannot retain mentioned subjects"⟩
  else none

/-- `Field(default=None, min_length=1, max_length=64)` of `pinned_by`. -/
def actorLengthOk (actor : String) : Bool :=
  decide (1 ≤ actor.length) && decide (actor.length ≤ 64)

/-- The model validators of a message. -/
def Message.checked (m : Message) : Except ValidationError Message :=
  match m.pinMetadataError? with
  | some e => .error e
  | none => .ok m

theorem Message.checked_ok {m n : Message} (h : m.checked = .ok n) :
    n = m ∧ m.pinMetadataError? = none := by
  unfold Message.checked at h
  cases hpin : m.pinMetadataError? with
  | some e => simp [hpin] at h
  | none =>
      rw [hpin] at h
      cases h
      exact ⟨rfl, rfl⟩

/-- The `Message` constructor. -/
def Message.build (raw : Message) : Except ValidationError Message :=
  if (raw.pinnedBy.map stripWhitespace).any fun actor => !actorLengthOk actor then
    .error ⟨"pinned_by", "String should have 1 to 64 characters"⟩
  else
    match validateMessageMetadata (stripMetadata raw.metadata) with
    | .error e => .error e
    | .ok metadata =>
        match validateAttachmentReferences raw.attachments with
        | .error e => .error e
        | .ok attachments =>
            match validateMentionedSubjects raw.mentionedSubjects with
            | .error e => .error e
            | .ok mentioned =>
                Message.checked
                  { raw.stripFields with
                    metadata := metadata
                    attachments := attachments
                    mentionedSubjects := mentioned.map stripWhitespace }

/-- What a built message took from the constructor's arguments. -/
structure Message.BuiltFrom (raw m : Message) : Prop where
  id : m.id = stripWhitespace raw.id
  roomId : m.roomId = stripWhitespace raw.roomId
  sender : m.sender = stripWhitespace raw.sender
  content : m.content = stripWhitespace raw.content
  createdAt : m.createdAt = raw.createdAt
  clientMessageId : m.clientMessageId = raw.clientMessageId.map stripWhitespace
  parentMessageId : m.parentMessageId = raw.parentMessageId.map stripWhitespace
  reactions : m.reactions = raw.reactions
  pinnedAt : m.pinnedAt = raw.pinnedAt
  pinnedBy : m.pinnedBy = raw.pinnedBy.map stripWhitespace
  attachments : m.attachments = raw.attachments
  editedAt : m.editedAt = raw.editedAt
  deletedAt : m.deletedAt = raw.deletedAt
  pinMetadata : m.pinMetadataError? = none

theorem validateAttachmentReferences_ok {value result : List AttachmentReference}
    (h : validateAttachmentReferences value = .ok result) : result = value := by
  unfold validateAttachmentReferences at h
  split_ifs at h
  cases h
  rfl

theorem validateMentionedSubjects_ok {value result : List String}
    (h : validateMentionedSubjects value = .ok result) : result = value := by
  unfold validateMentionedSubjects at h
  split_ifs at h
  cases h
  rfl

theorem Message.build_ok {raw m : Message} (h : raw.build = .ok m) :
    Message.BuiltFrom raw m := by
  unfold Message.build at h
  split_ifs at h
  cases hmeta : validateMessageMetadata (stripMetadata raw.metadata) with
  | error e => simp [hmeta] at h
  | ok metadata =>
      cases hatt : validateAttachmentReferences raw.attachments with
      | error e => simp [hmeta, hatt] at h
      | ok attachments =>
          cases hmen : validateMentionedSubjects raw.mentionedSubjects with
          | error e => simp [hmeta, hatt, hmen] at h
          | ok mentioned =>
              simp only [hmeta, hatt, hmen] at h
              obtain ⟨rfl, hpin⟩ := Message.checked_ok h
              have hattachments := validateAttachmentReferences_ok hatt
              exact ⟨rfl, rfl, rfl, rfl, rfl, rfl, rfl, rfl, rfl, rfl, hattachments, rfl, rfl,
                hpin⟩

/-- The same message with another parent reference. -/
def Message.withParent (parent : Option String) (m : Message) : Message :=
  { m with parentMessageId := parent.map stripWhitespace }

/-- No validator looks at the parent reference. -/
theorem Message.build_setParent (raw : Message) (parent : Option String) :
    Message.build { raw with parentMessageId := parent } =
      raw.build.map (Message.withParent parent) := by
  have hchecked : ∀ m : Message, (m.withParent parent).checked =
      m.checked.map (Message.withParent parent) := by
    intro m
    have hpin : (m.withParent parent).pinMetadataError? = m.pinMetadataError? := rfl
    unfold Message.checked
    rw [hpin]
    cases m.pinMetadataError? <;> rfl
  unfold Message.build
  dsimp only
  split_ifs
  · rfl
  · cases validateMessageMetadata (stripMetadata raw.metadata) with
    | error e => rfl
    | ok metadata =>
        cases validateAttachmentReferences raw.attachments with
        | error e => rfl
        | ok attachments =>
            cases validateMentionedSubjects raw.mentionedSubjects with
            | error e => rfl
            | ok mentioned =>
                exact hchecked
                  { raw.stripFields with
                    metadata := metadata
                    attachments := attachments
                    mentionedSubjects := mentioned.map stripWhitespace }

/-- A message that carries nothing a user wrote: what is left of a deletion. -/
def Message.ContentFree (m : Message) : Prop :=
  m.content = "" ∧ m.reactions = [] ∧ m.pinnedAt = none ∧ m.pinnedBy = none ∧
    m.metadata = [] ∧ m.attachments = [] ∧ m.mentionedSubjects = []

instance (m : Message) : Decidable m.ContentFree := by
  unfold Message.ContentFree
  infer_instance

/-! ## Results of the other write operations -/

/-- Result of an idempotent add/remove reaction operation. -/
structure ReactionMutation where
  message : Message
  key : String
  reactor : String
  present : Bool
  changed : Bool
  updatedAt : Timestamp
  deriving DecidableEq, Repr

/-- The `ReactionMutation` constructor. -/
def ReactionMutation.build (raw : ReactionMutation) : Except ValidationError ReactionMutation :=
  if ¬ matchesReactionKey (stripWhitespace raw.key) then
    .error ⟨"key", "String should match the reaction key pattern"⟩
  else if ¬ actorLengthOk (stripWhitespace raw.reactor) then
    .error ⟨"reactor", "String should have 1 to 64 characters"⟩
  else
    .ok { raw with key := stripWhitespace raw.key, reactor := stripWhitespace raw.reactor }

theorem ReactionMutation.build_ok {raw r : ReactionMutation} (h : raw.build = .ok r) :
    r.message = raw.message ∧ r.changed = raw.changed := by
  unfold ReactionMutation.build at h
  split_ifs at h
  cases h
  exact ⟨rfl, rfl⟩

/-- Result of an idempotent room-wide pin or unpin operation. -/
structure PinMutation where
  message : Message
  pinner : String
  pinned : Bool
  changed : Bool
  updatedAt : Timestamp
  deriving DecidableEq, Repr

/-- The `PinMutation` constructor. -/
def PinMutation.build (raw : PinMutation) : Except ValidationError PinMutation :=
  if ¬ actorLengthOk (stripWhitespace raw.pinner) then
    .error ⟨"pinner", "String should have 1 to 64 characters"⟩
  else .ok { raw with pinner := stripWhitespace raw.pinner }

theorem PinMutation.build_ok {raw p : PinMutation} (h : raw.build = .ok p) :
    p.message = raw.message ∧ p.changed = raw.changed := by
  unfold PinMutation.build at h
  split_ifs at h
  cases h
  exact ⟨rfl, rfl⟩

/-- Persisted moderation state for one room subject. -/
structure MemberModeration where
  roomId : String
  subject : String
  mutedUntil : Option Timestamp
  bannedUntil : Option Timestamp
  updatedAt : Timestamp
  deriving DecidableEq, Repr

/-- Relative mute/ban durations in seconds; zero clears the matching control. -/
structure MemberModerationUpdate where
  mutedForSeconds : Option Nat
  bannedForSeconds : Option Nat
  deriving DecidableEq, Repr

/-- A relative duration applied to the stored deadline: omitted keeps it, zero clears it. -/
def applyDuration (now : Timestamp) (duration : Option Nat) (stored : Option Timestamp) :
    Option Timestamp :=
  match duration with
  | none => stored
  | some 0 => none
  | some n => some (now + seconds n)

/-- A room id, as `RoomCreate` admits it and as `uuid4().hex` spells one. -/
abbrev RoomId := { id : String // matchesRoomId id = true }

theorem matchesRoomId_general : matchesRoomId "general" = true := by decide

/-- A persisted chat room. -/
structure Room where
  id : String
  name : String
  description : String
  createdAt : Timestamp
  archivedAt : Option Timestamp := none
  frozenAt : Option Timestamp := none
  deriving DecidableEq, Repr

/-- Payload for creating a persisted chat room, already validated. -/
structure RoomCreate where
  name : String
  description : String := ""
  id : Option RoomId := none
  deriving DecidableEq

/-- `uuid.uuid4().hex`: 32 lower-case hexadecimal digits. -/
structure UuidHex where
  text : String
  length_eq : text.toList.length = 32
  digits : (text.toList.all fun c => ('a' ≤ c && c ≤ 'f') || isDigit c) = true
  deriving DecidableEq

/-- One decimal digit. -/
def decimalDigit (n : Nat) : Char := Char.ofNat (48 + n % 10)

theorem isDigit_decimalDigit (n : Nat) : isDigit (decimalDigit n) = true := by
  have hall : ∀ k : Fin 10, isDigit (Char.ofNat (48 + k.val)) = true := by decide
  exact hall ⟨n % 10, Nat.mod_lt n (by decide)⟩

/-- The id whose digits spell `n`. -/
def UuidHex.ofNat (n : Nat) : UuidHex where
  text := String.ofList ((List.range 32).map fun i => decimalDigit (n / 10 ^ (31 - i)))
  length_eq := by simp
  digits := by simp [isDigit_decimalDigit]

/-! ## Identifiers have no surrounding white space -/

theorem isWhiteSpace_eq_false {c : Char} (h : isLower c = true ∨ isUpper c = true ∨
    isDigit c = true ∨ c = '_' ∨ c = '-') : isWhiteSpace c = false := by
  have hbounds : (0x2d ≤ c.toNat ∧ c.toNat ≤ 0x7a) := by
    rcases h with h | h | h | rfl | rfl
    · simp only [isLower, Bool.and_eq_true, decide_eq_true_eq, Char.le_def,
        UInt32.le_iff_toNat_le] at h
      have h1 : 'a'.val.toNat = 97 := rfl
      have h2 : 'z'.val.toNat = 122 := rfl
      have h3 : c.toNat = c.val.toNat := rfl
      omega
    · simp only [isUpper, Bool.and_eq_true, decide_eq_true_eq, Char.le_def,
        UInt32.le_iff_toNat_le] at h
      have h1 : 'A'.val.toNat = 65 := rfl
      have h2 : 'Z'.val.toNat = 90 := rfl
      have h3 : c.toNat = c.val.toNat := rfl
      omega
    · simp only [isDigit, Bool.and_eq_true, decide_eq_true_eq, Char.le_def,
        UInt32.le_iff_toNat_le] at h
      have h1 : '0'.val.toNat = 48 := rfl
      have h2 : '9'.val.toNat = 57 := rfl
      have h3 : c.toNat = c.val.toNat := rfl
      omega
    · decide
    · decide
  unfold isWhiteSpace
  simp only [Bool.or_eq_false_iff, Bool.and_eq_false_iff, decide_eq_false_iff_not,
    beq_eq_false_iff_ne]
  omega

/-- A text without white space is its own stripped form. -/
theorem stripWhitespace_eq_self {s : String}
    (h : ∀ c ∈ s.toList, isWhiteSpace c = false) : stripWhitespace s = s := by
  unfold stripWhitespace
  rw [strip_eq_self_iff]
  exact ⟨fun c hc => h c (List.mem_of_mem_head? hc),
    fun c hc => h c (List.mem_of_mem_getLast? hc)⟩

@[simp] theorem stripWhitespace_idem (s : String) :
    stripWhitespace (stripWhitespace s) = stripWhitespace s :=
  strip_idem s

/-- What Python's `strip` leaves has nothing left for pydantic to strip. -/
theorem stripWhitespace_of_pyStrip {s : String} (h : pyStrip s = s) : stripWhitespace s = s :=
  strip_eq_self_of_imp (fun c hc => by simp [isSpace, hc]) h

theorem RoomId.stripWhitespace_eq (id : RoomId) : stripWhitespace id.val = id.val := by
  apply stripWhitespace_eq_self
  intro c hc
  have hid := id.property
  unfold matchesRoomId matchesKey at hid
  cases hlist : id.val.toList with
  | nil =>
      rw [hlist] at hc
      cases hc
  | cons d ds =>
      rw [hlist] at hc hid
      simp only [Bool.and_eq_true, decide_eq_true_eq, Bool.or_eq_true, List.all_eq_true,
        beq_iff_eq] at hid
      obtain ⟨⟨hhead, -⟩, htail⟩ := hid
      rcases List.mem_cons.mp hc with rfl | hmem
      · exact isWhiteSpace_eq_false (by tauto)
      · have hc' := htail c hmem
        exact isWhiteSpace_eq_false (by tauto)

/-- Reaction keys are patterns without white space. -/
theorem stripWhitespace_of_matchesReactionKey {s : String} (h : matchesReactionKey s = true) :
    stripWhitespace s = s := by
  apply stripWhitespace_eq_self
  intro c hc
  unfold matchesReactionKey matchesKey at h
  cases hlist : s.toList with
  | nil =>
      rw [hlist] at hc
      cases hc
  | cons d ds =>
      rw [hlist] at hc h
      simp only [Bool.and_eq_true, decide_eq_true_eq, Bool.or_eq_true, List.all_eq_true,
        beq_iff_eq] at h
      obtain ⟨⟨hhead, -⟩, htail⟩ := h
      rcases List.mem_cons.mp hc with rfl | hmem
      · exact isWhiteSpace_eq_false (by tauto)
      · rcases htail c hmem with ((hc' | rfl) | rfl) | rfl
        · exact isWhiteSpace_eq_false (by tauto)
        · decide
        · decide
        · decide

theorem UuidHex.stripWhitespace_eq (u : UuidHex) : stripWhitespace u.text = u.text := by
  apply stripWhitespace_eq_self
  intro c hc
  have hdigit := List.all_eq_true.mp u.digits c hc
  simp only [Bool.or_eq_true, Bool.and_eq_true, decide_eq_true_eq] at hdigit
  apply isWhiteSpace_eq_false
  rcases hdigit with ⟨hlow, hhigh⟩ | hdigit
  · left
    simp only [isLower, Bool.and_eq_true, decide_eq_true_eq]
    exact ⟨hlow, le_trans hhigh (by decide)⟩
  · exact .inr (.inr (.inl hdigit))

/-- A generated id is a room id. -/
theorem UuidHex.matchesRoomId_text (u : UuidHex) : matchesRoomId u.text = true := by
  have hdigit : ∀ c ∈ u.text.toList, (isLower c || isDigit c) = true := by
    intro c hc
    have h := List.all_eq_true.mp u.digits c hc
    simp only [Bool.or_eq_true, Bool.and_eq_true, decide_eq_true_eq, isLower] at h ⊢
    rcases h with ⟨hlow, hhigh⟩ | h
    · exact .inl ⟨hlow, le_trans hhigh (by decide)⟩
    · exact .inr h
  have hlen := u.length_eq
  unfold matchesRoomId matchesKey
  cases hlist : u.text.toList with
  | nil => simp [hlist] at hlen
  | cons c cs =>
      rw [hlist] at hdigit hlen
      simp only [Bool.and_eq_true, decide_eq_true_eq, List.all_eq_true]
      refine ⟨⟨hdigit c (by simp), ?_⟩, ?_⟩
      · simp at hlen
        omega
      · intro d hd
        have h := hdigit d (List.mem_cons_of_mem c hd)
        simp [h]

/-- The room id a `uuid4().hex` names. -/
def UuidHex.roomId (u : UuidHex) : RoomId := ⟨u.text, u.matchesRoomId_text⟩

end Models
end ChatEngine
