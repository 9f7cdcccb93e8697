import Mathlib.Data.List.Infix
import ChatEngine.Store.Caps
import ChatEngine.Store.Listings

/-!
# Searching a room

The search route normalizes the query and hands the normal form to the store, which normalizes it
once more.

* `normalizeSearchQuery`, over the two tables of Unicode;
* `storeSearch` and `searchRoute`, the two passes;
* `SearchAnswers`: the request is answered, and the pages are the messages that hold the query;
* `search_answers_iff`: a query is answered so exactly when its normal form is normal.

The PostgreSQL store keeps the normal form of a content in a column of its own and passes the
query on in the same way.
-/

namespace ChatEngine
namespace Store

open Lib
open Models

/-- `unicodedata.normalize("NFKC", _)` and `str.casefold`. -/
structure UnicodeText where
  nfkc : String → String
  casefold : String → String

/-- `_normalize_search_text`. -/
def normalizeSearchText (u : UnicodeText) (value : Option String) : String :=
  u.casefold (u.nfkc (value.getD ""))

/-- `normalize_search_query`; nothing for `InvalidSearchQueryError`. -/
def normalizeSearchQuery (u : UnicodeText) (query : String) : Option String :=
  let normalized := normalizeSearchText u (some (pyStrip query))
  if 2 ≤ normalized.length ∧ normalized.length ≤ 100 then some normalized else none

/-- `instr(haystack, needle) > 0`. -/
def instr (haystack needle : String) : Prop := needle.toList <:+: haystack.toList

instance (haystack needle : String) : Decidable (instr haystack needle) := by
  unfold instr
  infer_instance

/-- The content holds a text in normal form. -/
def holds (u : UnicodeText) (normalized content : String) : Bool :=
  decide (instr (normalizeSearchText u (some content)) normalized)

/-- How the search of the store fails. -/
inductive StoreSearchError where
  | invalidSearchQuery
  | read (e : StoreError)
  deriving DecidableEq

/-- `_search_messages_sync`. -/
def storeSearch (u : UnicodeText) (roomId query : String) (limit : Nat) (before : Option String)
    (db : Database) : Except StoreSearchError (List Message × Option String) :=
  match normalizeSearchQuery u query with
  | none => .error .invalidSearchQuery
  | some normalizedQuery =>
      ((MessageListing.search roomId (holds u normalizedQuery)).fetch db limit before).mapError
        .read

/-- How the search route fails: its own check answers 422, and of the errors of the store only
those of the room and of the cursor are caught. -/
inductive SearchRouteError where
  | invalidSearchQuery
  | store (e : StoreSearchError)
  deriving DecidableEq

/-- `search_messages` of the router, past its access checks and its rate limit. -/
def searchRoute (u : UnicodeText) (roomId q : String) (limit : Nat) (before : Option String)
    (db : Database) : Except SearchRouteError (List Message × Option String) :=
  match normalizeSearchQuery u q with
  | none => .error .invalidSearchQuery
  | some normalizedQuery => (storeSearch u roomId normalizedQuery limit before db).mapError .store

/-- The live messages of the room whose content holds the text. -/
def Matching (u : UnicodeText) (roomId normalized : String) (r : MessageRow) : Prop :=
  r.roomId = roomId ∧ r.deletedAt = none ∧ instr (normalizeSearchText u (some r.content)) normalized

/-- The route answers a query that it accepts, in every room of every state of the store: the
store does not reject what it is handed, the pages are exactly the live messages that hold the
normal form, and a message that says just the query is on one of them. -/
def SearchAnswers (u : UnicodeText) (q : String) : Prop :=
  ∀ normalized, normalizeSearchQuery u q = some normalized →
    ∀ cfg db, StoreReachable cfg db → ∀ roomId, HasRoom db roomId → ∀ limit, 1 ≤ limit →
      (∀ before, searchRoute u roomId q limit before db ≠ .error (.store .invalidSearchQuery)) ∧
      ListsExactly (fun before => searchRoute u roomId q limit before db) true db.messages
        (Matching u roomId normalized) (Earlier MessageRow.createdAt MessageRow.id)
        MessageRow.Shows ∧
      ∀ r ∈ db.messages, r.roomId = roomId → r.deletedAt = none → r.content = pyStrip q →
        ∃ pages, Pages (fun before => searchRoute u roomId q limit before db) none pages ∧
          ∃ page ∈ pages, ∃ m ∈ page, r.Shows m

section Search

variable {u : UnicodeText} {q normalized again roomId : String} {limit : Nat}
variable {cfg : Config} {db : Database}

theorem normalizeSearchQuery_eq_some (h : normalizeSearchQuery u q = some normalized) :
    normalizeSearchText u (some (pyStrip q)) = normalized := by
  unfold normalizeSearchQuery at h
  dsimp only at h
  split at h
  · exact Option.some.inj h
  · cases h

theorem instr_self {text : String} : instr text text := List.infix_refl _

theorem instr_antisymm {a b : String} (hab : instr a b) (hba : instr b a) : a = b := by
  have htexts : a.toList = b.toList := hba.sublist.antisymm hab.sublist
  exact String.toList_inj.mp htexts

/-- A request whose text passes both normalizations is the search for the second form. -/
theorem searchRoute_eq {before : Option String} (hq : normalizeSearchQuery u q = some normalized)
    (hagain : normalizeSearchQuery u normalized = some again) :
    searchRoute u roomId q limit before db =
      (((MessageListing.search roomId (holds u again)).fetch db limit before).mapError
        StoreSearchError.read).mapError .store := by
  unfold searchRoute storeSearch
  simp only [hq, hagain]

/-- Its pages are the messages that hold the second form. -/
theorem searchRoute_lists (hreach : StoreReachable cfg db) (hroom : HasRoom db roomId)
    (hlimit : 1 ≤ limit) (hq : normalizeSearchQuery u q = some normalized)
    (hagain : normalizeSearchQuery u normalized = some again) :
    ListsExactly (fun before => searchRoute u roomId q limit before db) true db.messages
      (Matching u roomId again) (Earlier MessageRow.createdAt MessageRow.id) MessageRow.Shows := by
  have hopen : (MessageListing.search roomId (holds u again)).Open db := hroom
  have hlists := hopen.lists_exactly hreach hlimit
  have hmapped :=
    (hlists.mapError (f := StoreSearchError.read)).mapError (f := SearchRouteError.store)
  have hfetch : (fun before => searchRoute u roomId q limit before db) = fun before =>
      (((MessageListing.search roomId (holds u again)).fetch db limit before).mapError
        StoreSearchError.read).mapError SearchRouteError.store :=
    funext fun _ => searchRoute_eq hq hagain
  have hselected : (MessageListing.search roomId (holds u again)).Selected =
      Matching u roomId again := by
    ext r
    show r.roomId = roomId ∧ r.deletedAt = none ∧ decide _ = true ↔ _
    rw [decide_eq_true_eq]
    exact Iff.rfl
  rw [hfetch, ← hselected]
  exact hmapped

/-! ## A room with one message -/

/-- The call that says the content in the new room. -/
def sayContent (content : String) : CreateMessage :=
  Principal.createMessage sharedKey "general" "ada" { content := content } none

/-- A room without a message. -/
def quietRoom : Database := runCalls oneMessageConfig [(.fixed 1 0, makeRoom)] {}

theorem quietRoom_reachable : StoreReachable oneMessageConfig quietRoom := runCalls_reachable _ _

theorem quietRoom_open : HasRoom quietRoom "general" := hasRoom_iff.mpr (by decide +kernel)

theorem sayContent_passes (content : String) :
    (sayContent content).Passes oneMessageConfig (.fixed 5 20) quietRoom where
  mayWrite :=
    ⟨⟨{ id := ⟨"general", matchesRoomId_general⟩, name := "General", description := "",
        createdAt := 1 },
      Table.mem_rows.mp (by decide +kernel), rfl, rfl, .inl rfl⟩,
      fun _ hsubject => absurd hsubject (Option.some_ne_none _).symm⟩
  fresh := rfl
  parent := nofun
  content := ⟨NormalMetadata.nil, NormalAttachments.nil, NormalMentions.nil⟩
  keys := by
    refine ⟨?_, nofun, nofun⟩
    show (quietRoom.rooms.find? (stripWhitespace "general")).isSome = true
    decide +kernel
  messageId := by
    show ∀ r ∈ quietRoom.messages.rows, r.id ≠ (UuidHex.ofNat 20).text
    decide +kernel
  auditId := by
    show ∀ r ∈ quietRoom.auditEvents.rows, r.id ≠ (UuidHex.ofNat 21).text
    decide +kernel
  webhookId := by
    show ∀ r ∈ quietRoom.webhooks.rows, r.id ≠ "wh_" ++ (UuidHex.ofNat 22).text
    decide +kernel
  capacity := fun _ _ hselected => absurd hselected (by decide)

/-- Any content that has nothing to strip is the only message of a state of the store. -/
theorem exists_said {content : String} (hstripped : stripWhitespace content = content) :
    ∃ db, StoreReachable oneMessageConfig db ∧
      ∃ r ∈ db.messages, r.roomId = "general" ∧ r.deletedAt = none ∧ r.content = content := by
  have hfits : (sayContent content).Fits oneMessageConfig (.fixed 5 20) quietRoom := by
    constructor
    · exact Nat.zero_lt_one
    · exact Nat.succ_pos 9
  obtain ⟨m, db, hexec, row, hrow, -, -⟩ := (sayContent_passes content).returns_stored hfits
  have hstep : Step oneMessageConfig quietRoom (.fixed 5 20, .createMessage (sayContent content)) db :=
    congrArg Prod.snd hexec
  refine ⟨db, quietRoom_reachable.next _ hstep, row, hrow, ?_⟩
  obtain ⟨⟨m', created⟩, hcreate, -⟩ := Tx.returns_map.mp (exec_ok.mp hexec)
  rcases (createMessage_ok hcreate).2 with ⟨-, -, found, hfound, -⟩ | ⟨-, hcreated⟩
  · rw [(sayContent_passes content).fresh] at hfound
    cases hfound
  · obtain ⟨built, inserted, hbuild, -, -, hins, -, hcommits⟩ := hcreated.effect
    rw [(sayContent_passes content).content.build_eq] at hbuild
    obtain rfl := Except.ok.inj hbuild
    rw [hcommits.messages] at hrow
    obtain ⟨r, hr, hforgets⟩ := mem_trim hrow
    rcases (Table.mem_of_insert? hins).mp hr with hold | rfl
    · have hquiet : ∀ r ∈ quietRoom.messages.rows, False := by decide +kernel
      exact (hquiet r hold).elim
    · have hroom : ((sayContent content).newRow (.fixed 5 20)).roomId = "general" :=
        (sayContent_passes content).room_stripped
      have hcontent : ((sayContent content).newRow (.fixed 5 20)).content = content := hstripped
      rw [hforgets.same]
      exact ⟨hroom, rfl, hcontent⟩

/-- One message is the decoding of one row. -/
theorem Consistent.eq_of_shows (h : Consistent db) {r s : MessageRow} {m : Message}
    (hr : r ∈ db.messages) (hs : s ∈ db.messages) (hrm : r.Shows m) (hsm : s.Shows m) : r = s := by
  apply Table.eq_of_key hr hs
  show r.id = s.id
  calc r.id = stripWhitespace r.id := (h.ids r hr).symm
    _ = m.id := (messageFromRow_ok hrm).1.symm
    _ = stripWhitespace s.id := (messageFromRow_ok hsm).1
    _ = s.id := h.ids s hs

/-- Two forms between which no search tells are the same. -/
theorem eq_of_lists (hq : normalizeSearchQuery u q = some normalized)
    (hagain : normalizeSearchQuery u normalized = some again) (hanswers : SearchAnswers u q) :
    again = normalized := by
  -- whatever a message says that needs no stripping, both forms find it or neither
  have hboth : ∀ content, stripWhitespace content = content →
      (instr (normalizeSearchText u (some content)) normalized ↔
        instr (normalizeSearchText u (some content)) again) := by
    intro content hstripped
    obtain ⟨db, hreach, r, hr, hroom, hlive, hcontent⟩ := exists_said hstripped
    have hhas : HasRoom db "general" := by
      rw [← hroom]
      exact hreach.consistent.rooms r hr
    obtain ⟨-, hlists, -⟩ := hanswers normalized hq _ db hreach _ hhas 1 (le_refl 1)
    have hlists' := searchRoute_lists hreach hhas (le_refl 1) hq hagain
    have hshows : ∀ r ∈ db.messages, ∀ s ∈ db.messages, ∀ m, r.Shows m → s.Shows m → r = s :=
      fun r hr s hs m hrm hsm => hreach.consistent.eq_of_shows hr hs hrm hsm
    rw [← hcontent]
    constructor
    · intro hfound
      exact (hlists.selects hlists' hshows hr ⟨hroom, hlive, hfound⟩).2.2
    · intro hfound
      exact (hlists'.selects hlists hshows hr ⟨hroom, hlive, hfound⟩).2.2
  have hstripped : ∀ s, stripWhitespace (pyStrip s) = pyStrip s :=
    fun s => stripWhitespace_of_pyStrip (strip_idem s)
  have hfirst := (hboth _ (hstripped q)).mp
  have hsecond := (hboth _ (hstripped normalized)).mpr
  rw [normalizeSearchQuery_eq_some hq] at hfirst
  rw [normalizeSearchQuery_eq_some hagain] at hsecond
  exact instr_antisymm (hsecond instr_self) (hfirst instr_self)

/-- A query is answered in every room of every state exactly when its normal form is a query
whose normal form it is. -/
theorem search_answers_iff :
    SearchAnswers u q ↔ ∀ normalized, normalizeSearchQuery u q = some normalized →
      normalizeSearchQuery u normalized = some normalized := by
  constructor
  · intro hanswers normalized hq
    cases hagain : normalizeSearchQuery u normalized with
    | some again => rw [eq_of_lists hq hagain hanswers]
    | none =>
        have hrejected := (hanswers normalized hq _ quietRoom quietRoom_reachable "general"
          quietRoom_open 1 (le_refl 1)).1 none
        refine absurd ?_ hrejected
        unfold searchRoute storeSearch
        simp only [hq, hagain]
        rfl
  · intro hnormal normalized hq cfg db hreach roomId hroom limit hlimit
    have hagain := hnormal normalized hq
    have hlists := searchRoute_lists hreach hroom hlimit hq hagain
    refine ⟨?_, hlists, ?_⟩
    · intro before
      rw [searchRoute_eq hq hagain]
      cases (MessageListing.search roomId (holds u normalized)).fetch db limit before with
      | ok page => exact nofun
      | error e => exact nofun
    · intro r hr hin hlive hcontent
      refine hlists.shown hr ⟨hin, hlive, ?_⟩
      rw [hcontent, normalizeSearchQuery_eq_some hq]
      exact instr_self

/-! ## A query of one diaeresis -/

/-- NFKC of a spacing diaeresis, which no case folding changes: a blank and a combining one. -/
def diaeresis : UnicodeText where
  nfkc s := String.ofList (s.toList.flatMap fun c =>
    if c = '\u00a8' then [' ', '\u0308'] else [c])
  casefold s := s

/-- The route accepts the query of one diaeresis, and the store strips the blank of its normal form
and rejects the one character that is left. -/
theorem not_search_answers_diaeresis :
    normalizeSearchQuery diaeresis "\u00a8" = some " \u0308" ∧
      ¬ SearchAnswers diaeresis "\u00a8" := by
  have haccepted : normalizeSearchQuery diaeresis "\u00a8" = some " \u0308" := by decide +kernel
  refine ⟨haccepted, fun hanswers => ?_⟩
  have hrejected := (hanswers _ haccepted _ quietRoom quietRoom_reachable "general"
    quietRoom_open 1 (le_refl 1)).1 none
  apply hrejected
  have hstore : normalizeSearchQuery diaeresis " \u0308" = none := by decide +kernel
  unfold searchRoute storeSearch
  simp only [haccepted, hstore]
  rfl

end Search

end Store
end ChatEngine
