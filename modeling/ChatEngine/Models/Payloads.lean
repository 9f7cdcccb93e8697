import ChatEngine.Models.Message

/-!
# What the API models accept

The payloads of the write endpoints, each with the constructor that validates it, and the form
their content has afterwards.  Every value is validated again whenever a stored message is read,
so what matters is that a validated value passes its own validation unchanged:

* metadata: `NormalMetadata`, sorted by distinct keys with nothing left to strip;
* attachments and mentioned subjects: `NormalAttachments` and `NormalMentions`;
* `MessageCreate.build`, `MessageUpdate.build` and `ActorPayload.build`, each with the lemma that
  its result is in that form.
-/

namespace ChatEngine
namespace Models

open Lib

/-! ## Values that pass their own validation -/

/-- Nothing is left to strip, and the keys are distinct. -/
structure StrippedMetadata (v : MessageMetadata) : Prop where
  keys : (v.map Prod.fst).Nodup
  stripped : ∀ entry ∈ v, stripWhitespace entry.1 = entry.1 ∧ stripMetadataValue entry.2 = entry.2

theorem stripMetadataValue_idem (v : MetadataValue) :
    stripMetadataValue (stripMetadataValue v) = stripMetadataValue v := by
  cases v with
  | str s => simp [stripMetadataValue]
  | _ => rfl

theorem mem_keys_dictSet {key k : String} {value : MetadataValue} {v : MessageMetadata} :
    k ∈ (dictSet key value v).map Prod.fst ↔ k = key ∨ k ∈ v.map Prod.fst := by
  induction v with
  | nil => simp [dictSet]
  | cons entry rest ih =>
      unfold dictSet
      by_cases heq : entry.1 = key
      · rw [if_pos heq, List.map_cons, List.map_cons, List.mem_cons, List.mem_cons, heq]
        tauto
      · rw [if_neg heq, List.map_cons, List.map_cons, List.mem_cons, List.mem_cons, ih]
        tauto

theorem mem_dictSet {key : String} {value : MetadataValue} {v : MessageMetadata}
    {entry : String × MetadataValue} (h : entry ∈ dictSet key value v) :
    entry = (key, value) ∨ entry ∈ v := by
  induction v with
  | nil => simpa [dictSet] using h
  | cons first rest ih =>
      unfold dictSet at h
      split_ifs at h
      · rcases List.mem_cons.mp h with heq | hmem
        · exact .inl heq
        · exact .inr (List.mem_cons_of_mem _ hmem)
      · rcases List.mem_cons.mp h with heq | hmem
        · exact .inr (heq ▸ List.mem_cons_self)
        · exact (ih hmem).imp id (List.mem_cons_of_mem _)

theorem nodup_keys_dictSet {key : String} {value : MetadataValue} {v : MessageMetadata}
    (h : (v.map Prod.fst).Nodup) : ((dictSet key value v).map Prod.fst).Nodup := by
  induction v with
  | nil => simp [dictSet]
  | cons entry rest ih =>
      rw [List.map_cons, List.nodup_cons] at h
      unfold dictSet
      by_cases heq : entry.1 = key
      · rw [if_pos heq, List.map_cons, List.nodup_cons]
        show key ∉ _ ∧ _
        rw [← heq]
        exact h
      · rw [if_neg heq, List.map_cons, List.nodup_cons, mem_keys_dictSet]
        refine ⟨?_, ih h.2⟩
        rintro (hkey | hmem)
        · exact heq hkey
        · exact h.1 hmem

/-- A key that is not there yet is added at the end. -/
theorem dictSet_fresh {key : String} {value : MetadataValue} {v : MessageMetadata}
    (h : key ∉ v.map Prod.fst) : dictSet key value v = v ++ [(key, value)] := by
  induction v with
  | nil => rfl
  | cons entry rest ih =>
      rw [List.map_cons, List.mem_cons, not_or] at h
      unfold dictSet
      rw [if_neg (fun heq => h.1 heq.symm), ih h.2]
      rfl

theorem StrippedMetadata.dictSet {v : MessageMetadata} (h : StrippedMetadata v) (key : String)
    (value : MetadataValue) :
    StrippedMetadata (dictSet (stripWhitespace key) (stripMetadataValue value) v) := by
  refine ⟨nodup_keys_dictSet h.keys, ?_⟩
  intro entry hentry
  rcases mem_dictSet hentry with rfl | hmem
  · exact ⟨stripWhitespace_idem key, stripMetadataValue_idem value⟩
  · exact h.stripped entry hmem

theorem stripMetadata_stripped (raw : MessageMetadata) : StrippedMetadata (stripMetadata raw) := by
  have hgeneral : ∀ acc : MessageMetadata, StrippedMetadata acc →
      StrippedMetadata (raw.foldl (fun acc entry =>
        dictSet (stripWhitespace entry.1) (stripMetadataValue entry.2) acc) acc) := by
    induction raw with
    | nil => exact fun acc hacc => hacc
    | cons entry rest ih => exact fun acc hacc => ih _ (hacc.dictSet entry.1 entry.2)
  exact hgeneral [] ⟨List.nodup_nil, nofun⟩

theorem StrippedMetadata.stripMetadata_eq {v : MessageMetadata} (h : StrippedMetadata v) :
    stripMetadata v = v := by
  have hgeneral : ∀ acc : MessageMetadata, ((acc ++ v).map Prod.fst).Nodup →
      v.foldl (fun acc entry =>
        Models.dictSet (stripWhitespace entry.1) (stripMetadataValue entry.2) acc) acc =
        acc ++ v := by
    have hstripped := h.stripped
    clear h
    induction v with
    | nil => simp
    | cons entry rest ih =>
        intro acc hnodup
        obtain ⟨hkey, hvalue⟩ := hstripped entry List.mem_cons_self
        have hfresh : entry.1 ∉ acc.map Prod.fst := by
          intro hmem
          rw [List.map_append, List.map_cons, List.nodup_append] at hnodup
          exact hnodup.2.2 entry.1 hmem entry.1 List.mem_cons_self rfl
        rw [List.foldl_cons, hkey, hvalue, dictSet_fresh hfresh,
          ih (fun e he => hstripped e (List.mem_cons_of_mem _ he)) (acc ++ [(entry.1, entry.2)])]
        · simp
        · simpa using hnodup
  exact hgeneral [] h.keys

theorem sortKeys_perm (v : MessageMetadata) : (sortKeys v).Perm v :=
  List.perm_insertionSort _ v

theorem StrippedMetadata.sortKeys {v : MessageMetadata} (h : StrippedMetadata v) :
    StrippedMetadata (sortKeys v) := by
  refine ⟨((sortKeys_perm v).map Prod.fst).nodup_iff.mpr h.keys, ?_⟩
  intro entry hentry
  exact h.stripped entry ((sortKeys_perm v).mem_iff.mp hentry)

instance : Std.Total fun a b : String × MetadataValue => a.1 ≤ b.1 :=
  ⟨fun a b => le_total a.1 b.1⟩

instance : IsTrans (String × MetadataValue) fun a b => a.1 ≤ b.1 :=
  ⟨fun _ _ _ hab hbc => le_trans hab hbc⟩

@[simp] theorem sortKeys_idem (v : MessageMetadata) : sortKeys (sortKeys v) = sortKeys v :=
  List.Pairwise.insertionSort_eq (List.pairwise_insertionSort _ v)

theorem validateMessageMetadata_ok {v w : MessageMetadata}
    (h : validateMessageMetadata v = .ok w) :
    w = sortKeys v ∧ (dumpsMetadata (sortKeys v)).utf8ByteSize ≤ metadataMaxBytes := by
  unfold validateMessageMetadata at h
  by_cases hcount : metadataMaxKeys < v.length
  · rw [if_pos hcount] at h
    cases h
  · rw [if_neg hcount] at h
    cases hentry : (sortKeys v).findSome? metadataEntryError with
    | some message =>
        rw [hentry] at h
        cases h
    | none =>
        rw [hentry] at h
        dsimp only at h
        split_ifs at h with hsize
        exact ⟨(Except.ok.inj h).symm, not_lt.mp hsize⟩

theorem validateMessageMetadata_eq {v w : MessageMetadata}
    (h : validateMessageMetadata v = .ok w) : w = sortKeys v :=
  (validateMessageMetadata_ok h).1

/-- Metadata that passed passes again. -/
theorem validateMessageMetadata_again {v w : MessageMetadata}
    (h : validateMessageMetadata v = .ok w) : validateMessageMetadata w = .ok w := by
  obtain rfl := validateMessageMetadata_eq h
  unfold validateMessageMetadata at h ⊢
  rw [sortKeys_idem, (sortKeys_perm v).length_eq]
  exact h

/-- Metadata as its validation leaves it. -/
structure NormalMetadata (v : MessageMetadata) : Prop extends StrippedMetadata v where
  valid : validateMessageMetadata v = .ok v

theorem NormalMetadata.of_validated {raw v : MessageMetadata}
    (h : validateMessageMetadata (stripMetadata raw) = .ok v) : NormalMetadata v := by
  have hagain := validateMessageMetadata_again h
  obtain rfl := validateMessageMetadata_eq h
  exact ⟨(stripMetadata_stripped raw).sortKeys, hagain⟩

theorem NormalMetadata.sortKeys_eq {v : MessageMetadata} (h : NormalMetadata v) :
    sortKeys v = v :=
  (validateMessageMetadata_eq h.valid).symm

/-- The empty object. -/
theorem NormalMetadata.nil : NormalMetadata [] :=
  ⟨⟨List.nodup_nil, nofun⟩, by decide⟩

theorem NormalMetadata.size {v : MessageMetadata} (h : NormalMetadata v) :
    (dumpsMetadata v).utf8ByteSize ≤ metadataMaxBytes := by
  have hsize := (validateMessageMetadata_ok h.valid).2
  rwa [h.sortKeys_eq] at hsize

/-! ## Lists of models -/

theorem validateEach_again {α : Type} {f : α → Except ValidationError α}
    (hf : ∀ a b, f a = .ok b → f b = .ok b) {v w : List α} (h : validateEach f v = .ok w) :
    validateEach f w = .ok w := by
  induction v generalizing w with
  | nil =>
      cases h
      rfl
  | cons a rest ih =>
      unfold validateEach at h
      cases ha : f a with
      | error e =>
          rw [ha] at h
          cases h
      | ok b =>
          cases hrest : validateEach f rest with
          | error e =>
              rw [ha, hrest] at h
              cases h
          | ok bs =>
              rw [ha, hrest] at h
              cases h
              unfold validateEach
              rw [hf a b ha, ih hrest]

theorem AttachmentReference.strip_idem (a : AttachmentReference) : a.strip.strip = a.strip := by
  unfold AttachmentReference.strip
  simp [Option.map_map, Function.comp_def]

theorem AttachmentReference.validate_again (a b : AttachmentReference)
    (h : AttachmentReference.validate a = .ok b) : AttachmentReference.validate b = .ok b := by
  unfold AttachmentReference.validate at h
  cases herror : a.strip.error? with
  | some e =>
      rw [herror] at h
      cases h
  | none =>
      rw [herror] at h
      cases h
      unfold AttachmentReference.validate
      rw [AttachmentReference.strip_idem, herror]

/-- Attachments as their validation leaves them. -/
structure NormalAttachments (v : List AttachmentReference) : Prop where
  each : validateEach AttachmentReference.validate v = .ok v
  valid : validateAttachmentReferences v = .ok v

theorem NormalAttachments.of_validated {raw each v : List AttachmentReference}
    (heach : validateEach AttachmentReference.validate raw = .ok each)
    (h : validateAttachmentReferences each = .ok v) : NormalAttachments v := by
  obtain rfl := validateAttachmentReferences_ok h
  exact ⟨validateEach_again AttachmentReference.validate_again heach, h⟩

theorem NormalAttachments.nil : NormalAttachments [] := ⟨rfl, by decide⟩

theorem NormalAttachments.size {v : List AttachmentReference} (h : NormalAttachments v) :
    (dumpsAttachments v).utf8ByteSize ≤ attachmentsMaxBytes := by
  have hvalid := h.valid
  unfold validateAttachmentReferences at hvalid
  split_ifs at hvalid with hcount hnodup hsize
  exact not_lt.mp hsize

/-! ## Mentioned subjects -/

/-- Mentioned subjects as their validation leaves them. -/
structure NormalMentions (v : List String) : Prop where
  valid : validateMentionedSubjects v = .ok v
  stripped : v.map stripWhitespace = v

theorem NormalMentions.of_validated {raw v : List String}
    (h : validateMentionedSubjects raw = .ok v) : NormalMentions (v.map stripWhitespace) := by
  obtain rfl := validateMentionedSubjects_ok h
  have hstripped : v.map stripWhitespace = v := by
    have hvalid := h
    unfold validateMentionedSubjects at hvalid
    split_ifs at hvalid with hcount hlength hstrip hnodup
    rw [List.map_congr_left (g := id), List.map_id]
    intro subject hsubject
    exact stripWhitespace_of_pyStrip (hstrip subject hsubject).symm
  rw [hstripped]
  exact ⟨h, hstripped⟩

theorem NormalMentions.nil : NormalMentions [] := ⟨by decide, rfl⟩

/-! ## The size of a list of subjects -/

theorem utf8ByteSize_hexDigit {n : Nat} (h : n < 16) : (hexDigit n).utf8Size = 1 := by
  have hall : ∀ k : Fin 16, (hexDigit k.val).utf8Size = 1 := by decide
  exact hall ⟨n, h⟩

/-- An escape takes at most six bytes, any other character at most four. -/
theorem utf8ByteSize_dumpsChar (c : Char) : (dumpsChar c).utf8ByteSize ≤ 6 := by
  unfold dumpsChar
  split_ifs with h1 h2 h3 h4 h5 h6 h7 hcontrol
  any_goals decide
  · rw [String.utf8ByteSize_append]
    have hhigh := utf8ByteSize_hexDigit (n := c.toNat / 16) (by omega)
    have hlow := utf8ByteSize_hexDigit (n := c.toNat % 16) (by omega)
    have hfirst : ("\\u00" : String).utf8ByteSize = 4 := by decide
    have hrest : (String.ofList [hexDigit (c.toNat / 16), hexDigit (c.toNat % 16)]).utf8ByteSize =
        2 := by
      simp only [String.ofList_cons, String.utf8ByteSize_append, String.utf8ByteSize_singleton,
        hhigh, hlow, String.ofList_nil, String.utf8ByteSize_empty]
    omega
  · show (String.singleton c).utf8ByteSize ≤ 6
    rw [String.utf8ByteSize_singleton]
    have := c.utf8Size_le_four
    omega

theorem utf8ByteSize_join_le {bound : Nat} {items : List String}
    (h : ∀ s ∈ items, s.utf8ByteSize ≤ bound) :
    (String.join items).utf8ByteSize ≤ bound * items.length := by
  induction items with
  | nil => simp
  | cons s rest ih =>
      rw [String.join_cons, String.utf8ByteSize_append, List.length_cons, Nat.mul_succ]
      have hfirst := h s List.mem_cons_self
      have hrest := ih fun t ht => h t (List.mem_cons_of_mem s ht)
      omega

theorem utf8ByteSize_dumpsString_le (s : String) :
    (dumpsString s).utf8ByteSize ≤ 6 * s.length + 2 := by
  unfold dumpsString
  have hbody : (String.join (s.toList.map dumpsChar)).utf8ByteSize ≤
      6 * (s.toList.map dumpsChar).length := by
    apply utf8ByteSize_join_le
    intro t ht
    obtain ⟨c, -, rfl⟩ := List.mem_map.mp ht
    exact utf8ByteSize_dumpsChar c
  rw [List.length_map, String.length_toList] at hbody
  have hquote : ("\"" : String).utf8ByteSize = 1 := by decide
  rw [String.utf8ByteSize_append, String.utf8ByteSize_append]
  omega

theorem utf8ByteSize_intercalate_le {bound : Nat} {items : List String}
    (h : ∀ s ∈ items, s.utf8ByteSize ≤ bound) :
    (",".intercalate items).utf8ByteSize ≤ (bound + 1) * items.length := by
  induction items with
  | nil => simp
  | cons s rest ih =>
      have hfirst := h s List.mem_cons_self
      have hrest := ih fun t ht => h t (List.mem_cons_of_mem s ht)
      have hcomma : ("," : String).utf8ByteSize = 1 := by decide
      rw [List.length_cons, Nat.mul_succ]
      cases rest with
      | nil =>
          rw [String.intercalate_singleton]
          omega
      | cons t rest =>
          rw [String.intercalate_cons_cons, String.utf8ByteSize_append, String.utf8ByteSize_append]
          omega

theorem NormalMentions.size {v : List String} (h : NormalMentions v) :
    (dumpsMentions v).utf8ByteSize ≤ 4_096 := by
  have hvalid := h.valid
  unfold validateMentionedSubjects at hvalid
  split_ifs at hvalid with hcount hlength hstrip hnodup
  unfold dumpsMentions dumpsArray
  have hitems : (",".intercalate (v.map dumpsString)).utf8ByteSize ≤
      (386 + 1) * (v.map dumpsString).length := by
    apply utf8ByteSize_intercalate_le
    intro t ht
    obtain ⟨subject, hsubject, rfl⟩ := List.mem_map.mp ht
    have hbytes := utf8ByteSize_dumpsString_le subject
    have hchars := (hlength subject hsubject).2
    omega
  rw [List.length_map] at hitems
  have hten : v.length ≤ 10 := not_lt.mp hcount
  have hopen : ("[" : String).utf8ByteSize = 1 := by decide
  have hclose : ("]" : String).utf8ByteSize = 1 := by decide
  rw [String.utf8ByteSize_append, String.utf8ByteSize_append]
  omega

/-! ## Payloads -/

def lengthOk (max : Nat) (s : String) : Bool := decide (1 ≤ s.length) && decide (s.length ≤ max)

/-- `Field(min_length=1, max_length=max)` of an optional text. -/
def boundedError? (loc : String) (max : Nat) (value : Option String) : Option ValidationError :=
  if value.any fun s => !lengthOk max s then
    some ⟨loc, "String should have 1 to " ++ toString max ++ " characters"⟩
  else none

/-- Payload for posting a message, over HTTP or, without a sender, over a socket. -/
structure MessageCreate where
  content : String := ""
  sender : Option String := none
  clientMessageId : Option String := none
  parentMessageId : Option String := none
  metadata : MessageMetadata := []
  attachments : List AttachmentReference := []
  mentionedSubjects : List String := []
  deriving DecidableEq

/-- `str_strip_whitespace` on the plain string fields. -/
def MessageCreate.stripFields (p : MessageCreate) : MessageCreate :=
  { p with
    content := stripWhitespace p.content
    sender := p.sender.map stripWhitespace
    clientMessageId := p.clientMessageId.map stripWhitespace
    parentMessageId := p.parentMessageId.map stripWhitespace }

def contentMaxLength : Nat := 100_000

/-- The length constraints of the plain string fields. -/
def MessageCreate.fieldError? (p : MessageCreate) : Option ValidationError :=
  if contentMaxLength < p.content.length then
    some ⟨"content", "String should have at most 100000 characters"⟩
  else
    ((boundedError? "sender" 64 p.sender).or
      (boundedError? "client_message_id" 128 p.clientMessageId)).or
        (boundedError? "parent_message_id" 128 p.parentMessageId)

/-- The `MessageCreate` and `WebSocketMessage` constructors. -/
def MessageCreate.build (raw : MessageCreate) : Except ValidationError MessageCreate :=
  match raw.stripFields.fieldError? with
  | some e => .error e
  | none =>
      match validateMessageMetadata (stripMetadata raw.metadata) with
      | .error e => .error e
      | .ok metadata =>
          match validateEach AttachmentReference.validate raw.attachments with
          | .error e => .error e
          | .ok each =>
              match validateAttachmentReferences each with
              | .error e => .error e
              | .ok attachments =>
                  match validateMentionedSubjects raw.mentionedSubjects with
                  | .error e => .error e
                  | .ok mentioned =>
                      -- `require_content_or_attachment`
                      if pyStrip raw.stripFields.content = "" ∧ attachments = [] then
                        .error ⟨"", "content or at least one attachment is required"⟩
                      else
                        .ok
                          { raw.stripFields with
                            metadata := metadata
                            attachments := attachments
                            mentionedSubjects := mentioned.map stripWhitespace }

/-- The content of an accepted payload is in the form its validation leaves. -/
structure MessageCreate.Normal (p : MessageCreate) : Prop where
  metadata : NormalMetadata p.metadata
  attachments : NormalAttachments p.attachments
  mentions : NormalMentions p.mentionedSubjects

theorem MessageCreate.build_ok {raw p : MessageCreate} (h : raw.build = .ok p) : p.Normal := by
  unfold MessageCreate.build at h
  cases hfield : raw.stripFields.fieldError? with
  | some e => simp [hfield] at h
  | none =>
      cases hmeta : validateMessageMetadata (stripMetadata raw.metadata) with
      | error e => simp [hfield, hmeta] at h
      | ok metadata =>
          cases heach : validateEach AttachmentReference.validate raw.attachments with
          | error e => simp [hfield, hmeta, heach] at h
          | ok each =>
              cases hatt : validateAttachmentReferences each with
              | error e => simp [hfield, hmeta, heach, hatt] at h
              | ok attachments =>
                  cases hmen : validateMentionedSubjects raw.mentionedSubjects with
                  | error e => simp [hfield, hmeta, heach, hatt, hmen] at h
                  | ok mentioned =>
                      simp only [hfield, hmeta, heach, hatt, hmen] at h
                      split_ifs at h
                      cases h
                      exact ⟨NormalMetadata.of_validated hmeta,
                        NormalAttachments.of_validated heach hatt,
                        NormalMentions.of_validated hmen⟩

/-- Author or administrator message-content update. -/
structure MessageUpdate where
  content : String
  metadata : Option MessageMetadata := none
  mentionedSubjects : Option (List String) := none
  deriving DecidableEq

/-- `validate_optional_message_metadata`. -/
def validateOptionalMessageMetadata :
    Option MessageMetadata → Except ValidationError (Option MessageMetadata)
  | none => .ok none
  | some value => (validateMessageMetadata (stripMetadata value)).map some

/-- `validate_optional_mentioned_subjects`. -/
def validateOptionalMentionedSubjects :
    Option (List String) → Except ValidationError (Option (List String))
  | none => .ok none
  | some value => (validateMentionedSubjects value).map fun v => some (v.map stripWhitespace)

/-- The `MessageUpdate` constructor. -/
def MessageUpdate.build (raw : MessageUpdate) : Except ValidationError MessageUpdate :=
  if ¬ (1 ≤ (stripWhitespace raw.content).length ∧
      (stripWhitespace raw.content).length ≤ contentMaxLength) then
    .error ⟨"content", "String should have 1 to 100000 characters"⟩
  else if pyStrip (stripWhitespace raw.content) = "" then
    .error ⟨"content", "content must not be blank"⟩
  else
    match validateOptionalMessageMetadata raw.metadata with
    | .error e => .error e
    | .ok metadata =>
        match validateOptionalMentionedSubjects raw.mentionedSubjects with
        | .error e => .error e
        | .ok mentioned =>
            .ok
              { content := stripWhitespace raw.content, metadata := metadata,
                mentionedSubjects := mentioned }

/-- What an accepted update replaces is in the form its validation leaves. -/
structure MessageUpdate.Normal (p : MessageUpdate) : Prop where
  metadata : ∀ v, p.metadata = some v → NormalMetadata v
  mentions : ∀ v, p.mentionedSubjects = some v → NormalMentions v

theorem MessageUpdate.build_ok {raw p : MessageUpdate} (h : raw.build = .ok p) : p.Normal := by
  unfold MessageUpdate.build at h
  split_ifs at h
  cases hmeta : validateOptionalMessageMetadata raw.metadata with
  | error e => simp [hmeta] at h
  | ok metadata =>
      cases hmen : validateOptionalMentionedSubjects raw.mentionedSubjects with
      | error e => simp [hmeta, hmen] at h
      | ok mentioned =>
          simp only [hmeta, hmen] at h
          cases h
          constructor
          · rintro v rfl
            cases hraw : raw.metadata with
            | none => simp [hraw, validateOptionalMessageMetadata] at hmeta
            | some value =>
                rw [hraw] at hmeta
                cases hvalid : validateMessageMetadata (stripMetadata value) with
                | error e => simp [validateOptionalMessageMetadata, hvalid, Except.map] at hmeta
                | ok w =>
                    simp only [validateOptionalMessageMetadata, hvalid, Except.map,
                      Except.ok.injEq, Option.some.injEq] at hmeta
                    rw [← hmeta]
                    exact NormalMetadata.of_validated hvalid
          · rintro v rfl
            cases hraw : raw.mentionedSubjects with
            | none => simp [hraw, validateOptionalMentionedSubjects] at hmen
            | some value =>
                rw [hraw] at hmen
                cases hvalid : validateMentionedSubjects value with
                | error e => simp [validateOptionalMentionedSubjects, hvalid, Except.map] at hmen
                | ok w =>
                    simp only [validateOptionalMentionedSubjects, hvalid, Except.map,
                      Except.ok.injEq, Option.some.injEq] at hmen
                    rw [← hmen]
                    exact NormalMentions.of_validated hvalid

/-! ## Actors -/

/-- The optional actor of `ReactionActor` and `PinActor`, after its validation. -/
def validateActor (loc : String) (actor : Option String) : Except ValidationError (Option String) :=
  match boundedError? loc 64 (actor.map stripWhitespace) with
  | some e => .error e
  | none => .ok (actor.map stripWhitespace)

/-- The `ReactionActor` constructor. -/
def ReactionActor.build (reactor : Option String) : Except ValidationError (Option String) :=
  validateActor "reactor" reactor

/-- The `PinActor` constructor. -/
def PinActor.build (pinner : Option String) : Except ValidationError (Option String) :=
  validateActor "pinner" pinner

/-- A name of 1 to 64 characters with nothing left to strip. -/
structure NormalActor (name : String) : Prop where
  length : actorLengthOk name = true
  stripped : stripWhitespace name = name

theorem validateActor_ok {loc : String} {actor result : Option String}
    (h : validateActor loc actor = .ok result) : ∀ name, result = some name → NormalActor name := by
  unfold validateActor at h
  cases herror : boundedError? loc 64 (actor.map stripWhitespace) with
  | some e => simp [herror] at h
  | none =>
      rw [herror] at h
      cases h
      intro name hname
      obtain ⟨raw, rfl, rfl⟩ := Option.map_eq_some_iff.mp hname
      refine ⟨?_, stripWhitespace_idem raw⟩
      unfold boundedError? at herror
      split_ifs at herror with hbad
      simp only [Option.map_some, Option.any_some, Bool.not_eq_true', Bool.not_eq_false] at hbad
      exact hbad

/-- The subject of an access token, as `_principal_from_payload` accepts it. -/
structure Principal where
  subject : Option String
  isAdmin : Bool
  subject_ok : ∀ s, subject = some s →
    1 ≤ (pyStrip s).length ∧ (pyStrip s).length ≤ 64 ∧ pyStrip s = s

/-- The acting name of a request: the token's subject, which the payload may repeat but not
replace, or the payload's name when there is no subject. -/
def Principal.actor (p : Principal) (given : Option String) : Option String :=
  match p.subject with
  | none => given
  | some subject => if given.all fun name => name = subject then some subject else none

theorem Principal.actor_normal {p : Principal} {given : Option String}
    (hgiven : ∀ name, given = some name → NormalActor name) :
    ∀ name, p.actor given = some name → NormalActor name := by
  intro name hname
  unfold Principal.actor at hname
  cases hsubject : p.subject with
  | none =>
      rw [hsubject] at hname
      exact hgiven name hname
  | some subject =>
      rw [hsubject] at hname
      dsimp only at hname
      split_ifs at hname
      cases hname
      obtain ⟨hlow, hhigh, hstrip⟩ := p.subject_ok name hsubject
      rw [hstrip] at hlow hhigh
      refine ⟨?_, stripWhitespace_of_pyStrip hstrip⟩
      unfold actorLengthOk
      rw [decide_eq_true hlow, decide_eq_true hhigh]
      rfl

/-! ## Messages that pass their own validation -/

/-- The constructor only strips the fields of a message whose content is in normal form. -/
theorem Message.build_normal {m : Message} (hmetadata : NormalMetadata m.metadata)
    (hattachments : NormalAttachments m.attachments) (hmentions : NormalMentions m.mentionedSubjects)
    (hpinner : ∀ actor, m.pinnedBy = some actor → NormalActor actor)
    (hrules : m.stripFields.pinMetadataError? = none) : m.build = .ok m.stripFields := by
  have hactor : ((m.pinnedBy.map stripWhitespace).any fun actor => !actorLengthOk actor) = false := by
    cases hby : m.pinnedBy with
    | none => rfl
    | some actor =>
        have hnormal := hpinner actor hby
        simp [hnormal.stripped, hnormal.length]
  have hvalid : validateMessageMetadata (stripMetadata m.metadata) = .ok m.metadata := by
    rw [hmetadata.stripMetadata_eq]
    exact hmetadata.valid
  have hsame : { m.stripFields with
      metadata := m.metadata
      attachments := m.attachments
      mentionedSubjects := m.mentionedSubjects } = m.stripFields := rfl
  unfold Message.build
  rw [hactor, hvalid, hattachments.valid, hmentions.valid]
  simp only [Bool.false_eq_true, if_false, hmentions.stripped, hsame]
  unfold Message.checked
  rw [hrules]

end Models
end ChatEngine
