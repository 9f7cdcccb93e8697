import ChatEngine.Client.Session

/-!
# What the steps of a session keep

* `Session.Known`, the attempts that the session has made;
* `SessionOk`, the invariant, and `SessionOk.step`, that every step keeps it unless `connect` is
  called by a listener that `failAttempt` notifies.
-/

namespace ChatEngine
namespace Client

namespace Frame

/-- The attempt that a frame goes on with. -/
def attempt? : Frame → Option Nat
  | .opening g | .factory g | .activated g | .dispatching g _ => some g
  | .failing .. | .closing _ | .closed => none

/-- The socket that a frame has yet to close. -/
def held : Frame → List Nat
  | .failing _ socket | .closing socket => socket.toList
  | .opening _ | .factory _ | .activated _ | .dispatching .. | .closed => []

def isFailing : Frame → Bool
  | .failing .. => true
  | _ => false

def isFactory : Frame → Bool
  | .factory _ => true
  | _ => false

/-- The frame is on the way to the socket of the attempt `g`. -/
def opens (g : Nat) : Frame → Bool
  | .opening g' | .factory g' => g' == g
  | _ => false

end Frame

/-- `failAttempt` notifies the listeners of the timeline. -/
def Session.failing (s : Session) : Bool := s.stack.any Frame.isFailing

/-- An attempt that the session has made: it is over, or it is the one that it owns. -/
def Session.Known (s : Session) (g : Nat) : Prop :=
  g < s.generation ∨ g = s.generation ∧ s.attempt = true

/-- How often the attempt has its socket, or is on the way to it. -/
def Session.openings (s : Session) : Nat :=
  s.socket.toList.count s.generation + s.credentials.count s.generation +
    s.stack.countP (Frame.opens s.generation)

/-- The invariant; `spare` is a socket that is about to be closed. -/
structure SessionOk (policy : ReconnectPolicy) (spare : List Nat) (s : Session) : Prop where
  frames : ∀ f ∈ s.stack, ∀ g, f.attempt? = some g → s.Known g
  credentials : ∀ g ∈ s.credentials, s.Known g
  installed : ∀ g ∈ s.installed, s.Known g ∧ (g = s.generation → s.socket = some g)
  detached : s.attempt = false → s.handshakes = [] ∧ s.stables = [] ∧ s.socket = none
  handshake : s.attempt = true → s.phase ≠ .active →
    s.handshakes = [s.generation] ∧ s.handshakeTimer = some s.generation
  shaken : s.attempt = true → s.phase = .active → s.handshakes = []
  stable : s.stables = [] ∨
    s.stables = [s.generation] ∧ s.stableTimer = some s.generation ∧ s.phase = .active
  socket : s.socket = none ∨ s.socket = some s.generation
  armed : s.reconnects = [] ∨ s.reconnects = [s.generation] ∧
    s.reconnectTimer = some s.generation ∧ s.attempt = false ∧ s.state = .reconnecting
  sockets : s.sockets = s.socket.toList ++ (spare ++ s.stack.flatMap Frame.held)
  single : s.sockets.length ≤ 1
  once : s.openings ≤ 1
  bottom : ∀ f ∈ s.stack.dropLast, f.isFactory = false
  failed : s.failing = true → s.attempt = false ∧ s.reconnects = []
  alone : s.stack.countP Frame.isFailing ≤ 1
  live : s.attempt = true → s.state ≠ .idle ∧ s.state ≠ .closed
  connecting : s.state = .connecting → s.promise = true
  connected : s.state = .connected → s.failing = true ∨
    s.attempt = true ∧ s.phase = .active ∧ s.socket = some s.generation
  activated : ∀ g, .activated g ∈ s.stack → g = s.generation →
    s.phase = .active ∧ s.socket = some s.generation
  manual : s.manuallyClosed = true → .closed ∈ s.stack ∨ s.attempt = false
  budget : s.reopened + s.reconnects.length ≤ s.attempts
  bounded : s.attempts ≤ policy.maxAttempts
  delays : ∀ d ∈ s.delays, 0 ≤ d ∧ d ≤ policy.maxDelayMs
  resolutions : ∀ r ∈ s.resolutions, r.phase = .active ∧ r.socket = some r.generation

section Invariant

variable {policy : ReconnectPolicy} {spare : List Nat} {s : Session} {f : Frame} {g : Nat}

theorem ReconnectPolicy.delay_bounds (policy : ReconnectPolicy) (attempts : Nat) (random : Rat) :
    0 ≤ policy.delay attempts random ∧ policy.delay attempts random ≤ policy.maxDelayMs := by
  unfold ReconnectPolicy.delay
  dsimp only
  omega

@[simp] theorem Session.failing_push : (s.push f).failing = (f.isFailing || s.failing) := rfl

theorem Session.failing_false_iff :
    s.failing = false ↔ s.stack.countP Frame.isFailing = 0 := by
  rw [Session.failing, List.any_eq_false, List.countP_eq_zero]

theorem Session.isCurrent_iff :
    s.isCurrent g = true ↔ g = s.generation ∧ s.manuallyClosed = false := by
  simp [Session.isCurrent]

@[simp] theorem Session.openings_push :
    (s.push f).openings = s.openings + if f.opens s.generation = true then 1 else 0 := by
  show _ + (f :: s.stack).countP (Frame.opens s.generation) = _
  rw [List.countP_cons, ← Nat.add_assoc]
  rfl

/-- A frame is put on top. -/
theorem SessionOk.push (h : SessionOk policy f.held s) (hknown : ∀ g, f.attempt? = some g → s.Known g)
    (hopens : f.opens s.generation = true → s.openings = 0)
    (hfailing : f.isFailing = true → s.failing = false ∧ s.attempt = false ∧ s.reconnects = [])
    (hfactory : f.isFactory = true → s.stack = [])
    (hactivated : ∀ g, f = .activated g → s.phase = .active ∧ s.socket = some s.generation) :
    SessionOk policy [] (s.push f) where
  frames f' hmem g hg := by
    rcases List.mem_cons.mp hmem with rfl | hold
    · exact hknown g hg
    · exact h.frames f' hold g hg
  credentials := h.credentials
  installed := h.installed
  detached := h.detached
  handshake := h.handshake
  shaken := h.shaken
  stable := h.stable
  socket := h.socket
  armed := h.armed
  sockets := h.sockets
  single := h.single
  once := by
    rw [Session.openings_push]
    split_ifs with hnew
    · rw [hopens hnew]
    · exact h.once
  bottom f' hmem := by
    cases hstack : s.stack with
    | nil =>
        rw [Session.push, hstack] at hmem
        cases hmem
    | cons top rest =>
        have hcons : (f :: s.stack).dropLast = f :: s.stack.dropLast := by
          rw [hstack]
          rfl
        rw [Session.push, hcons] at hmem
        rcases List.mem_cons.mp hmem with rfl | hold
        · by_contra htrue
          have hempty := hfactory ((Bool.not_eq_false _).mp htrue)
          rw [hstack] at hempty
          cases hempty
        · exact h.bottom f' hold
  failed hfail := by
    rw [Session.failing_push, Bool.or_eq_true] at hfail
    rcases hfail with hnew | hold
    · exact (hfailing hnew).2
    · exact h.failed hold
  alone := by
    show (f :: s.stack).countP Frame.isFailing ≤ 1
    rw [List.countP_cons]
    split_ifs with hnew
    · have hzero := Session.failing_false_iff.mp (hfailing hnew).1
      omega
    · exact h.alone
  live := h.live
  connecting := h.connecting
  connected hstate := by
    rcases h.connected hstate with hfail | hlive
    · left
      rw [Session.failing_push, hfail, Bool.or_true]
    · exact .inr hlive
  activated g hmem hg := by
    rcases List.mem_cons.mp hmem with heq | hold
    · exact hactivated g heq.symm
    · exact h.activated g hold hg
  manual hclosed := (h.manual hclosed).imp_left (List.mem_cons_of_mem f)
  budget := h.budget
  bounded := h.bounded
  delays := h.delays
  resolutions := h.resolutions

theorem Session.push_pop {rest : List Frame} (hstack : s.stack = f :: rest) :
    { s with stack := rest }.push f = s := by
  rw [Session.push, ← hstack]

/-- The frame on top is taken off. -/
theorem SessionOk.pop {rest : List Frame} (h : SessionOk policy [] s) (hstack : s.stack = f :: rest)
    (hfailing : f.isFailing = true → s.state ≠ .connected)
    (hclosed : f = .closed → s.attempt = false) :
    SessionOk policy f.held { s with stack := rest } where
  frames f' hmem := h.frames f' (hstack ▸ List.mem_cons_of_mem f hmem)
  credentials := h.credentials
  installed := h.installed
  detached := h.detached
  handshake := h.handshake
  shaken := h.shaken
  stable := h.stable
  socket := h.socket
  armed := h.armed
  sockets := by
    have hsockets := h.sockets
    rw [hstack] at hsockets
    exact hsockets
  single := h.single
  once := by
    have honce := h.once
    rw [← Session.push_pop hstack, Session.openings_push] at honce
    exact Nat.le_trans (Nat.le_add_right ..) honce
  bottom f' hmem := by
    apply h.bottom f'
    rw [hstack]
    cases rest with
    | nil => cases hmem
    | cons next rest => exact List.mem_cons_of_mem f hmem
  failed hfail := by
    apply h.failed
    rw [Session.failing, hstack, List.any_cons]
    exact (Bool.or_eq_true ..).mpr (.inr hfail)
  alone := by
    have halone := h.alone
    rw [hstack, List.countP_cons] at halone
    exact Nat.le_trans (Nat.le_add_right ..) halone
  live := h.live
  connecting := h.connecting
  connected hstate := by
    rcases h.connected hstate with hfail | hlive
    · left
      rw [Session.failing, hstack, List.any_cons, Bool.or_eq_true] at hfail
      rcases hfail with htop | hrest
      · exact absurd hstate (hfailing htop)
      · exact hrest
    · exact .inr hlive
  activated g hmem := h.activated g (hstack ▸ List.mem_cons_of_mem f hmem)
  manual hmanual := by
    rcases h.manual hmanual with hmem | hdetached
    · rw [hstack] at hmem
      rcases List.mem_cons.mp hmem with htop | hrest
      · exact .inr (hclosed htop.symm)
      · exact .inl hrest
    · exact .inr hdetached
  budget := h.budget
  bounded := h.bounded
  delays := h.delays
  resolutions := h.resolutions

theorem SessionOk.closeTransport {socket : Option Nat} (h : SessionOk policy socket.toList s) :
    SessionOk policy [] (s.closeTransport socket) := by
  cases socket with
  | none => exact h
  | some g =>
      have hsockets := h.sockets
      have hsingle := h.single
      -- The only socket is the spare one.
      have hempty : s.socket = none ∧ s.stack.flatMap Frame.held = [] := by
        rw [hsockets] at hsingle
        cases hsocket : s.socket with
        | none =>
            rw [hsocket] at hsingle
            simp only [Option.toList_none, Option.toList_some, List.nil_append, List.length_append,
              List.length_singleton] at hsingle
            exact ⟨rfl, List.length_eq_zero_iff.mp (by omega)⟩
        | some g' =>
            rw [hsocket] at hsingle
            simp only [Option.toList_some, List.length_append, List.length_singleton] at hsingle
            omega
      rw [hempty.1, hempty.2] at hsockets
      exact
        { h with
          sockets := by
            show s.sockets.erase g = s.socket.toList ++ ([] ++ s.stack.flatMap Frame.held)
            rw [hsockets, hempty.1, hempty.2]
            simp
          single := by
            show (s.sockets.erase g).length ≤ 1
            exact Nat.le_trans List.length_erase_le hsingle }

/-- The state is set, and published before the socket is closed. -/
theorem SessionOk.setStateAndClose {state : ConnectionState} {socket : Option Nat}
    (h : SessionOk policy socket.toList { s with state := state }) :
    SessionOk policy [] (s.setStateAndClose state socket) := by
  unfold Session.setStateAndClose
  split_ifs with hsame
  · subst hsame
    exact h.closeTransport
  · exact SessionOk.push (f := .closing socket) h nofun nofun nofun nofun nofun

theorem SessionOk.opened (h : SessionOk policy spare s) (hknown : s.Known g)
    (hopens : g = s.generation → s.openings = 0) : SessionOk policy spare (s.opened g) := by
  unfold Session.opened
  split_ifs with hcurrent
  · have hg := (Session.isCurrent_iff.mp hcurrent).1
    have hzero := hopens hg
    exact
      { h with
        credentials := by
          intro g' hmem
          rcases List.mem_cons.mp hmem with rfl | hold
          · exact hknown
          · exact h.credentials g' hold
        once := by
          show s.socket.toList.count s.generation + (g :: s.credentials).count s.generation +
            s.stack.countP (Frame.opens s.generation) ≤ 1
          rw [hg, List.count_cons_self]
          unfold Session.openings at hzero
          omega }
  · exact h

end Invariant

section Steps

variable {policy : ReconnectPolicy} {spare : List Nat} {s s' : Session} {f : Frame} {g : Nat}
  {rest : List Frame}

@[simp] theorem clearTimer_nil (timer : Option Nat) : clearTimer timer [] = [] := by
  cases timer <;> rfl

@[simp] theorem clearTimer_self (g : Nat) : clearTimer (some g) [g] = [] := by
  simp [clearTimer]

theorem SessionOk.cleared (h : SessionOk policy spare s) :
    clearTimer s.handshakeTimer s.handshakes = [] ∧ clearTimer s.stableTimer s.stables = [] ∧
      clearTimer s.reconnectTimer s.reconnects = [] := by
  refine ⟨?_, ?_, ?_⟩
  · cases hattempt : s.attempt with
    | false => rw [(h.detached hattempt).1, clearTimer_nil]
    | true =>
        by_cases hphase : s.phase = .active
        · rw [h.shaken hattempt hphase, clearTimer_nil]
        · rw [(h.handshake hattempt hphase).1, (h.handshake hattempt hphase).2, clearTimer_self]
  · rcases h.stable with hnone | ⟨hone, htimer, _⟩
    · rw [hnone, clearTimer_nil]
    · rw [hone, htimer, clearTimer_self]
  · rcases h.armed with hnone | ⟨hone, htimer, _⟩
    · rw [hnone, clearTimer_nil]
    · rw [hone, htimer, clearTimer_self]

/-- Once the generation has moved on, every attempt is an earlier one. -/
theorem Session.Known.lt {n : Nat} (h : s.Known g) (hnext : s.generation < n) : g < n := by
  rcases h with hold | ⟨rfl, -⟩
  · omega
  · exact hnext

theorem Session.Known.attempt (h : s.Known g) (hg : g = s.generation) : s.attempt = true := by
  rcases h with hold | ⟨-, hattempt⟩
  · omega
  · exact hattempt

/-- A generation that no attempt has yet has no openings. -/
theorem SessionOk.openings_fresh (h : SessionOk policy spare s) (hattempt : s'.socket = none)
    (hcredentials : s'.credentials = s.credentials) (hstack : s'.stack = s.stack)
    (hnext : s.generation < s'.generation) : s'.openings = 0 := by
  have hcredential : s.credentials.count s'.generation = 0 := by
    apply List.count_eq_zero.mpr
    intro hmem
    exact absurd ((h.credentials _ hmem).lt hnext) (Nat.lt_irrefl _)
  have hframes : s.stack.countP (Frame.opens s'.generation) = 0 := by
    apply List.countP_eq_zero.mpr
    intro f hmem hopens
    cases f with
    | opening g | factory g =>
        have hg : g = s'.generation := beq_iff_eq.mp hopens
        exact absurd ((h.frames _ hmem g rfl).lt hnext) (by omega)
    | activated | dispatching | failing | closing | closed => cases hopens
  rw [Session.openings, hattempt, hcredentials, hstack, hcredential, hframes]
  rfl

/-- The attempt is detached in a state that is not `connected`. -/
theorem SessionOk.detach (h : SessionOk policy spare s) (hstate : s.state ≠ .connected)
    (hreconnects : s.reconnects = []) :
    SessionOk policy (s.socket.toList ++ spare) s.detachAttempt where
  frames f hmem g hg := .inl ((h.frames f hmem g hg).lt (Nat.lt_succ_self _))
  credentials g hmem := .inl ((h.credentials g hmem).lt (Nat.lt_succ_self _))
  installed g hmem := by
    have hlt := (h.installed g hmem).1.lt (Nat.lt_succ_self _)
    exact ⟨.inl hlt, fun hg => absurd hg (Nat.ne_of_lt hlt)⟩
  detached _ := ⟨h.cleared.1, h.cleared.2.1, rfl⟩
  handshake := nofun
  shaken := nofun
  stable := .inl h.cleared.2.1
  socket := .inl rfl
  armed := .inl hreconnects
  sockets := by
    show s.sockets = [] ++ ((s.socket.toList ++ spare) ++ s.stack.flatMap Frame.held)
    rw [h.sockets, List.nil_append, List.append_assoc]
  single := h.single
  once := by
    have hnone : s.detachAttempt.openings = 0 :=
      h.openings_fresh rfl rfl rfl (Nat.lt_succ_self _)
    rw [hnone]
    exact Nat.zero_le 1
  bottom := h.bottom
  failed _ := ⟨rfl, hreconnects⟩
  alone := h.alone
  live := nofun
  connecting := h.connecting
  connected hconnected := absurd hconnected hstate
  activated g hmem hg :=
    absurd hg (Nat.ne_of_lt ((h.frames _ hmem g rfl).lt (Nat.lt_succ_self _)))
  manual _ := .inr rfl
  budget := h.budget
  bounded := h.bounded
  delays := h.delays
  resolutions := h.resolutions

/-- `connected` is the only clause that the state `connected` needs. -/
theorem SessionOk.of_connected (h : SessionOk policy spare { s with state := .reconnecting })
    (hstate : s.state = .connected) (hreconnects : s.reconnects = []) (hfailing : s.failing = true) :
    SessionOk policy spare s :=
  { h with
    armed := .inl hreconnects
    live := fun _ => by rw [hstate]; exact ⟨nofun, nofun⟩
    connecting := fun hconnecting => by rw [hstate] at hconnecting; cases hconnecting
    connected := fun _ => .inl hfailing }

end Steps

section Actions

variable {policy : ReconnectPolicy} {s s' : Session} {f : Frame} {g : Nat} {rest : List Frame}

theorem SessionOk.owned (h : SessionOk policy [] s) (hattempt : s.attempt = true) :
    s.reconnects = [] ∧ s.failing = false := by
  constructor
  · rcases h.armed with hnone | ⟨-, -, hdetached, -⟩
    · exact hnone
    · rw [hattempt] at hdetached
      cases hdetached
  · by_contra hfail
    have hdetached := (h.failed ((Bool.not_eq_false _).mp hfail)).1
    rw [hattempt] at hdetached
    cases hdetached

theorem SessionOk.failAttempt (h : SessionOk policy [] s) (hknown : s.Known g) (retry : Bool) :
    SessionOk policy [] (s.failAttempt g retry) := by
  unfold Session.failAttempt
  split_ifs with hcurrent
  · have hattempt := hknown.attempt (Session.isCurrent_iff.mp hcurrent).1
    obtain ⟨hreconnects, hfailing⟩ := h.owned hattempt
    have hpush : ∀ t : Session, SessionOk policy [] t → t.state ≠ .connected →
        t.reconnects = [] → t.failing = false →
        SessionOk policy [] (t.detachAttempt.push (.failing retry t.socket)) := by
      intro t ht hstate hnone hquiet
      refine SessionOk.push (f := .failing retry t.socket) ?_ nofun nofun
        (fun _ => ⟨hquiet, rfl, hnone⟩) nofun nofun
      have hdetach := ht.detach hstate hnone
      rwa [List.append_nil] at hdetach
    by_cases hstate : s.state = .connected
    · -- The listeners still see the state `connected`.
      have hother : SessionOk policy [] { s with state := .reconnecting } :=
        { h with
          armed := .inl hreconnects
          live := fun _ => ⟨nofun, nofun⟩
          connecting := nofun
          connected := nofun }
      exact (hpush _ hother nofun hreconnects hfailing).of_connected hstate hreconnects rfl
    · exact hpush s h hstate hreconnects hfailing
  · exact h

/-- A detached session without an armed timer opens a socket. -/
theorem SessionOk.openSocket (h : SessionOk policy [] s) (reconnecting : Bool)
    (hattempt : s.attempt = false) (hreconnects : s.reconnects = []) (hfailing : s.failing = false)
    (hmanual : s.manuallyClosed = false) (hpromise : reconnecting = false → s.promise = true) :
    SessionOk policy [] (s.openSocket reconnecting) := by
  obtain ⟨hhandshakes, hstables, hsocket⟩ := h.detached hattempt
  have hlt : ∀ g, s.Known g → g < s.generation + 1 := fun g hg => hg.lt (Nat.lt_succ_self _)
  have hnone : ∀ s' : Session, s'.socket = s.socket → s'.credentials = s.credentials →
      s'.stack = s.stack → s'.generation = s.generation + 1 → s'.openings = 0 := by
    intro s' h₁ h₂ h₃ h₄
    exact h.openings_fresh (h₁.trans hsocket) h₂ h₃ (h₄ ▸ Nat.lt_succ_self _)
  have hopen : ∀ state : ConnectionState,
      state = (if reconnecting = true then ConnectionState.reconnecting else .connecting) →
      SessionOk policy [] { s with
        generation := s.generation + 1
        attempt := true
        phase := .opening
        handshakeTimer := some (s.generation + 1)
        handshakes := (s.generation + 1) :: s.handshakes
        state := state } := by
    intro state hstate
    exact
      { h with
        frames := fun f hmem g hg => .inl (hlt g (h.frames f hmem g hg))
        credentials := fun g hmem => .inl (hlt g (h.credentials g hmem))
        installed := fun g hmem =>
          ⟨.inl (hlt g (h.installed g hmem).1),
            fun hg => absurd hg (Nat.ne_of_lt (hlt g (h.installed g hmem).1))⟩
        detached := nofun
        handshake := fun _ _ => ⟨by rw [hhandshakes], rfl⟩
        shaken := nofun
        stable := .inl hstables
        socket := .inl hsocket
        armed := .inl hreconnects
        once := Nat.le_trans (Nat.le_of_eq (hnone _ rfl rfl rfl rfl)) (Nat.zero_le 1)
        failed := fun hfail => by
          have hclash : s.failing = true := hfail
          rw [hfailing] at hclash
          cases hclash
        live := fun _ => by
          rw [hstate]
          cases reconnecting <;> exact ⟨nofun, nofun⟩
        connecting := fun hconnecting => by
          apply hpromise
          rw [hstate] at hconnecting
          cases reconnecting
          · rfl
          · cases hconnecting
        connected := fun hconnected => by
          rw [hstate] at hconnected
          cases reconnecting <;> cases hconnected
        activated := fun g hmem hg =>
          absurd hg (Nat.ne_of_lt (hlt g (h.frames _ hmem g rfl)))
        manual := fun hclosed => by
          have hclash : s.manuallyClosed = true := hclosed
          rw [hmanual] at hclash
          cases hclash }
  unfold Session.openSocket
  dsimp only
  generalize (if reconnecting = true then ConnectionState.reconnecting else .connecting) = state
    at hopen ⊢
  split
  · rename_i hsame
    exact (hopen s.state hsame).opened (.inr ⟨rfl, rfl⟩) fun _ => hnone _ rfl rfl rfl rfl
  · exact SessionOk.push (f := .opening (s.generation + 1)) (hopen state rfl)
      (fun g hg => .inr ⟨(Option.some.inj hg).symm, rfl⟩) (fun _ => hnone _ rfl rfl rfl rfl)
      nofun nofun nofun

theorem SessionOk.resolve (h : SessionOk policy [] s) (hphase : s.phase = .active)
    (hsocket : s.socket = some s.generation) : SessionOk policy [] s.resolve :=
  { h with
    resolutions := by
      intro r hr
      rcases List.mem_append.mp hr with hold | hnew
      · exact h.resolutions r hold
      · rw [List.mem_singleton.mp hnew]
        exact ⟨hphase, hsocket⟩ }

theorem SessionOk.connect (h : SessionOk policy [] s) (hfailing : s.failing = false) :
    SessionOk policy [] s.connect := by
  have hquiet : SessionOk policy [] { s with quiet := false } := { h with }
  unfold Session.connect
  dsimp only
  split_ifs with hconnected hpromise hreconnecting
  · rcases h.connected hconnected with hfail | ⟨-, hphase, hsocket⟩
    · rw [hfailing] at hfail
      cases hfail
    · exact hquiet.resolve hphase hsocket
  · exact hquiet
  · exact
      { h with
        connecting := fun _ => rfl
        manual := nofun }
  · -- Neither an attempt nor a timer is left where the state is `idle` or `closed`.
    have hattempt : s.attempt = false := by
      by_contra htrue
      have hlive := h.live ((Bool.not_eq_false _).mp htrue)
      cases hstate : s.state with
      | idle => exact hlive.1 hstate
      | closed => exact hlive.2 hstate
      | connected => exact hconnected hstate
      | reconnecting => exact hreconnecting hstate
      | connecting => exact hpromise (h.connecting hstate)
    have hreconnects : s.reconnects = [] := by
      rcases h.armed with hnone | ⟨-, -, -, hstate⟩
      · exact hnone
      · exact absurd hstate hreconnecting
    refine SessionOk.openSocket ?_ false hattempt hreconnects hfailing rfl fun _ => rfl
    exact
      { h with
        connecting := fun _ => rfl
        manual := nofun
        budget := by
          show 0 + s.reconnects.length ≤ 0
          rw [hreconnects]
          exact Nat.le_refl 0
        bounded := Nat.zero_le _ }

theorem SessionOk.close (h : SessionOk policy [] s) : SessionOk policy [] s.close := by
  have hmarked : SessionOk policy [] (s.push .closed) :=
    SessionOk.push (f := .closed) h nofun nofun nofun nofun nofun
  exact { hmarked with manual := fun _ => .inl List.mem_cons_self }

end Actions

/-! ## Steps -/

section Frames

variable {policy : ReconnectPolicy} {s : Session} {f : Frame} {g : Nat} {rest : List Frame}

/-- A detached session without an armed timer takes another state. -/
theorem SessionOk.enter {state : ConnectionState} (h : SessionOk policy [] s)
    (hattempt : s.attempt = false) (hreconnects : s.reconnects = [])
    (hconnecting : state ≠ .connecting) (hconnected : state ≠ .connected) :
    SessionOk policy [] { s with promise := false, state := state } :=
  { h with
    armed := .inl hreconnects
    live := fun hlive => by
      have hclash : s.attempt = true := hlive
      rw [hattempt] at hclash
      cases hclash
    connecting := fun hstate => absurd hstate hconnecting
    connected := fun hstate => absurd hstate hconnected }

/-- `failAttempt` goes on after the listeners of the timeline. -/
theorem SessionOk.scheduleReconnect {retry : Bool} {socket : Option Nat} (h : SessionOk policy [] s)
    (hstack : s.stack = .failing retry socket :: rest) (random : Rat) :
    SessionOk policy [] ({ s with stack := rest, promise := false }.scheduleReconnect policy retry
      random socket) := by
  have hfailing : s.failing = true := by
    rw [Session.failing, hstack]
    rfl
  obtain ⟨hattempt, hreconnects⟩ := h.failed hfailing
  have hleft : ∀ state : ConnectionState, state ≠ .connecting → state ≠ .connected →
      SessionOk policy socket.toList { s with stack := rest, promise := false, state := state } :=
    fun state hconnecting hconnected =>
      (h.enter hattempt hreconnects hconnecting hconnected).pop (f := .failing retry socket) hstack
        (fun _ => hconnected) nofun
  unfold Session.scheduleReconnect
  dsimp only
  split_ifs with hover
  · exact SessionOk.setStateAndClose (hleft .closed nofun nofun)
  · push Not at hover
    have hquiet : rest.any Frame.isFailing = false := by
      have halone := h.alone
      rw [hstack, List.countP_cons_of_pos rfl] at halone
      rw [List.any_eq_false, ← List.countP_eq_zero]
      omega
    have hwait := hleft .reconnecting nofun nofun
    refine SessionOk.setStateAndClose ?_
    exact
      { hwait with
        armed := .inr ⟨by rw [hreconnects], rfl, hattempt, rfl⟩
        failed := fun hfail => by
          have hclash : rest.any Frame.isFailing = true := hfail
          rw [hquiet] at hclash
          cases hclash
        budget := by
          have hbudget := h.budget
          show s.reopened + (s.generation :: s.reconnects).length ≤ s.attempts + 1
          rw [List.length_cons]
          omega
        bounded := hover.2.2
        delays := by
          intro d hd
          rcases List.mem_append.mp hd with hold | hnew
          · exact h.delays d hold
          · rw [List.mem_singleton.mp hnew]
            exact policy.delay_bounds _ _ }

/-- `close` goes on after the listeners of the timeline. -/
theorem SessionOk.closeRest (h : SessionOk policy [] s) (hstack : s.stack = .closed :: rest) :
    SessionOk policy [] { s with stack := rest }.closeRest := by
  have hlt : ∀ g, s.Known g → g < s.generation + 1 := fun g hg => hg.lt (Nat.lt_succ_self _)
  have hframes : ∀ f ∈ rest, ∀ g, f.attempt? = some g → g < s.generation + 1 :=
    fun f hmem g hg => hlt g (h.frames f (hstack ▸ List.mem_cons_of_mem _ hmem) g hg)
  have hbelow : SessionOk policy s.socket.toList { s.detachAttempt with
      stack := rest, reconnects := [], reconnectTimer := none, promise := false, quiet := true,
      state := .closed } := by
    exact
      { h with
        frames := fun f hmem g hg => .inl (hframes f hmem g hg)
        credentials := fun g hmem => .inl (hlt g (h.credentials g hmem))
        installed := fun g hmem =>
          ⟨.inl (hlt g (h.installed g hmem).1),
            fun hg => absurd hg (Nat.ne_of_lt (hlt g (h.installed g hmem).1))⟩
        detached := fun _ => ⟨h.cleared.1, h.cleared.2.1, rfl⟩
        handshake := nofun
        shaken := nofun
        stable := .inl h.cleared.2.1
        socket := .inl rfl
        armed := .inl rfl
        sockets := by
          show s.sockets = [] ++ (s.socket.toList ++ rest.flatMap Frame.held)
          rw [h.sockets, hstack]
          rfl
        once := by
          have hnone : s.detachAttempt.openings = 0 :=
            h.openings_fresh rfl rfl rfl (Nat.lt_succ_self _)
          rw [← Session.push_pop (s := s.detachAttempt) hstack, Session.openings_push] at hnone
          exact Nat.le_trans (Nat.le_of_eq (Nat.eq_zero_of_add_eq_zero_right hnone)) (Nat.zero_le 1)
        bottom := by
          intro f hmem
          apply h.bottom f
          rw [hstack]
          cases rest with
          | nil => cases hmem
          | cons next rest => exact List.mem_cons_of_mem _ hmem
        failed := fun _ => ⟨rfl, rfl⟩
        alone := by
          have halone := h.alone
          rw [hstack, List.countP_cons] at halone
          exact Nat.le_trans (Nat.le_add_right ..) halone
        live := nofun
        connecting := nofun
        connected := nofun
        activated := fun g hmem hg => absurd hg (Nat.ne_of_lt (hframes _ hmem g rfl))
        manual := fun _ => .inr rfl
        budget := Nat.le_trans (Nat.add_le_add_left (Nat.zero_le _) _) h.budget }
  unfold Session.closeRest
  have hcleared : clearTimer s.reconnectTimer s.reconnects = [] := h.cleared.2.2
  dsimp only
  rw [hcleared]
  exact SessionOk.setStateAndClose hbelow

/-- The attempt is active and its session connected. -/
theorem SessionOk.settle (h : SessionOk policy [] s) (hattempt : s.attempt = true)
    (hphase : s.phase = .active) (hsocket : s.socket = some s.generation) :
    SessionOk policy [] { s with promise := false, state := .connected } :=
  { h with
    armed := .inl (h.owned hattempt).1
    live := fun _ => ⟨nofun, nofun⟩
    connecting := nofun
    connected := fun _ => .inr ⟨hattempt, hphase, hsocket⟩ }

/-- The frame was all that was on the way to the socket of the attempt. -/
theorem SessionOk.openings_pop (h : SessionOk policy [] s) (hstack : s.stack = f :: rest)
    (hopens : f.opens s.generation = true) : { s with stack := rest }.openings = 0 := by
  have honce := h.once
  rw [← Session.push_pop hstack, Session.openings_push, if_pos (by exact hopens)] at honce
  omega

/-- A frame that is not of the socket factory goes on. -/
theorem SessionOk.resume (h : SessionOk policy [] s) (hstack : s.stack = f :: rest)
    (hfactory : f.isFactory = false) (sent : Bool) (random : Rat) :
    SessionOk policy [] ({ s with stack := rest }.resume policy sent random f) := by
  have hmem : f ∈ s.stack := hstack ▸ List.mem_cons_self
  cases f with
  | opening g =>
      have hpop := h.pop hstack nofun nofun
      refine SessionOk.opened hpop (h.frames _ hmem g rfl) ?_
      exact fun hg => h.openings_pop hstack (beq_iff_eq.mpr hg)
  | factory => cases hfactory
  | activated g =>
      have hpop := h.pop hstack nofun nofun
      show SessionOk policy [] (if _ then _ else _)
      split_ifs with hcurrent hpromise
      · obtain ⟨hphase, hsocket⟩ := h.activated g hmem (Session.isCurrent_iff.mp hcurrent).1
        have hattempt := (h.frames _ hmem g rfl).attempt (Session.isCurrent_iff.mp hcurrent).1
        exact SessionOk.push (f := .dispatching g false)
          ((hpop.resolve hphase hsocket).settle hattempt hphase hsocket)
          (fun _ hg => Option.some.inj hg ▸ h.frames _ hmem g rfl) nofun nofun nofun nofun
      · obtain ⟨hphase, hsocket⟩ := h.activated g hmem (Session.isCurrent_iff.mp hcurrent).1
        have hattempt := (h.frames _ hmem g rfl).attempt (Session.isCurrent_iff.mp hcurrent).1
        exact SessionOk.push (f := .dispatching g false) (hpop.settle hattempt hphase hsocket)
          (fun _ hg => Option.some.inj hg ▸ h.frames _ hmem g rfl) nofun nofun nofun nofun
      · exact hpop
  | dispatching g history =>
      have hpop := h.pop hstack nofun nofun
      show SessionOk policy [] (if _ then _ else _)
      split_ifs with hfails
      · exact SessionOk.failAttempt hpop (h.frames _ hmem g rfl) true
      · exact hpop
  | failing retry socket => exact h.scheduleReconnect hstack random
  | closing socket => exact SessionOk.closeTransport (h.pop hstack nofun nofun)
  | closed => exact h.closeRest hstack

end Frames

section Events

variable {policy : ReconnectPolicy} {s : Session} {g : Nat} {rest : List Frame}

theorem SessionOk.phase_ne (h : SessionOk policy [] s) (hstack : s.stack = [])
    (hphase : s.phase ≠ .active) : s.state ≠ .connected := by
  intro hstate
  rcases h.connected hstate with hfail | ⟨-, hactive, -⟩
  · rw [Session.failing, hstack] at hfail
    cases hfail
  · exact hphase hactive

/-- The attempt goes on to a phase before the last one. -/
theorem SessionOk.advance {phase : Phase} (h : SessionOk policy [] s) (hstack : s.stack = [])
    (hbefore : s.phase ≠ .active) (hafter : phase ≠ .active) :
    SessionOk policy [] { s with phase := phase } :=
  { h with
    handshake := fun hattempt _ => h.handshake hattempt hbefore
    shaken := fun _ hactive => absurd hactive hafter
    stable := h.stable.imp_right fun hone => absurd hone.2.2 hbefore
    connected := fun hstate => absurd hstate (h.phase_ne hstack hbefore)
    activated := fun g hmem => by
      have hclash : Frame.activated g ∈ s.stack := hmem
      rw [hstack] at hclash
      cases hclash }

/-- The current attempt has received the whole history. -/
theorem SessionOk.activate (h : SessionOk policy [] s) (hstack : s.stack = [])
    (hmem : g ∈ s.installed) (hg : g = s.generation) (hphase : s.phase ≠ .active) :
    SessionOk policy [] (s.activate g) := by
  have hstables : s.stables = [] := by
    rcases h.stable with hnone | ⟨-, -, hactive⟩
    · exact hnone
    · exact absurd hactive hphase
  have hsocket : s.socket = some s.generation := hg ▸ (h.installed g hmem).2 hg
  have hactive : SessionOk policy [] { s with
      phase := .active
      handshakes := clearTimer s.handshakeTimer s.handshakes
      handshakeTimer := none
      stableTimer := some g
      stables := g :: s.stables } :=
    { h with
      detached := fun hdetached => by
        have hnone := (h.detached hdetached).2.2
        rw [hsocket] at hnone
        cases hnone
      handshake := fun _ hother => absurd rfl hother
      shaken := fun _ _ => h.cleared.1
      stable := .inr ⟨by rw [hstables, hg], congrArg some hg, rfl⟩
      connected := fun hstate => absurd hstate (h.phase_ne hstack hphase)
      activated := fun _ _ _ => ⟨rfl, hsocket⟩ }
  exact SessionOk.push (f := .activated g) hactive
    (fun _ hg' => Option.some.inj hg' ▸ (h.installed g hmem).1) nofun nofun nofun
    fun _ _ => ⟨rfl, hsocket⟩

theorem SessionOk.dispatch {history : Bool} (h : SessionOk policy [] s) (hknown : s.Known g) :
    SessionOk policy [] (s.push (.dispatching g history)) :=
  SessionOk.push (f := .dispatching g history) h (fun _ hg => Option.some.inj hg ▸ hknown)
    nofun nofun nofun nofun

theorem SessionOk.handleMessage (h : SessionOk policy [] s) (hstack : s.stack = [])
    (hmem : g ∈ s.installed) (hg : g = s.generation) (incoming : Incoming) :
    SessionOk policy [] (s.handleMessage g incoming) := by
  have hknown := (h.installed g hmem).1
  cases incoming with
  | invalid => exact h.failAttempt hknown false
  | authRequired sent =>
      show SessionOk policy [] (if _ then _ else if _ then _ else _)
      split_ifs
      · exact h.failAttempt hknown false
      · exact h.failAttempt hknown true
      · exact h.dispatch hknown
  | ready =>
      show SessionOk policy [] (if _ then _ else _)
      split_ifs with hphase
      · exact h.failAttempt hknown false
      · have hbefore : s.phase ≠ .active := fun hactive => by simp [hactive] at hphase
        have hready : SessionOk policy [] { s with phase := .ready } :=
          h.advance hstack hbefore nofun
        exact hready.dispatch hknown
  | history =>
      show SessionOk policy [] (if _ then _ else _)
      split_ifs with hphase
      · exact h.failAttempt hknown false
      · have hbefore : s.phase ≠ .active := fun hactive => by simp [hactive] at hphase
        have hhistory : SessionOk policy [] { s with phase := .history } :=
          h.advance hstack hbefore nofun
        exact hhistory.dispatch hknown
  | syncCompleted boundary =>
      show SessionOk policy [] (if _ then _ else if _ then _ else _)
      split_ifs with hphase
      · exact h.dispatch hknown
      · exact h.failAttempt hknown false
      · exact h.activate hstack hmem hg fun hactive => by simp [hactive] at hphase
  | pong =>
      show SessionOk policy [] (if _ then _ else _)
      split_ifs with hphase
      · exact h.dispatch hknown
      · exact h.activate hstack hmem hg fun hactive => by simp [hactive] at hphase
  | other => exact h.dispatch hknown

/-- A credential is settled. -/
theorem SessionOk.credentialSettled (h : SessionOk policy [] s) (hstack : s.stack = [])
    (hmem : g ∈ s.credentials) (outcome : CredentialOutcome) :
    SessionOk policy []
      ({ s with credentials := s.credentials.erase g }.credentialSettled g outcome) := by
  have hknown := h.credentials g hmem
  have hsettled : SessionOk policy [] { s with credentials := s.credentials.erase g } :=
    { h with
      credentials := fun g' hmem' => h.credentials g' (List.mem_of_mem_erase hmem')
      once := by
        have hcount := (List.erase_sublist (a := g) (l := s.credentials)).count_le s.generation
        exact Nat.le_trans (Nat.add_le_add_right (Nat.add_le_add_left hcount _) _) h.once }
  cases outcome with
  | resolved =>
      show SessionOk policy [] (if _ then _ else _)
      split_ifs with hcurrent
      · have hg := (Session.isCurrent_iff.mp hcurrent).1
        refine SessionOk.push (f := .factory g) hsettled
          (fun _ hg' => Option.some.inj hg' ▸ hknown) (fun _ => ?_) nofun (fun _ => hstack) nofun
        -- The attempt had one credential, and nothing else.
        have honce := h.once
        have hcount : (s.credentials.erase g).count s.generation =
            s.credentials.count s.generation - 1 := hg ▸ List.count_erase_self
        have hpos : 0 < s.credentials.count s.generation := List.count_pos_iff.mpr (hg ▸ hmem)
        unfold Session.openings at honce ⊢
        dsimp only at honce ⊢
        omega
      · exact hsettled
  | badUrl => exact hsettled.failAttempt hknown false
  | rejected => exact hsettled.failAttempt hknown true

/-- Nothing but the session's own code runs while its socket is made. -/
theorem SessionOk.factory_last (h : SessionOk policy [] s) (hstack : s.stack = .factory g :: rest) :
    rest = [] := by
  cases rest with
  | nil => rfl
  | cons next rest =>
      have hfalse := h.bottom (.factory g) (by rw [hstack]; exact List.mem_cons_self)
      cases hfalse

theorem SessionOk.socketMade (h : SessionOk policy [] s) (hstack : s.stack = .factory g :: rest) :
    SessionOk policy [] ({ s with stack := rest }.socketMade g) := by
  have hknown := h.frames (.factory g) (hstack ▸ List.mem_cons_self) g rfl
  have hpop := h.pop hstack nofun nofun
  have hlast := h.factory_last hstack
  subst hlast
  unfold Session.socketMade
  split_ifs with hcurrent
  · have hg : g = s.generation := (Session.isCurrent_iff.mp hcurrent).1
    have hattempt := hknown.attempt hg
    have hzero := h.openings_pop hstack (beq_iff_eq.mpr hg)
    have hnone : s.socket = none := by
      rcases h.socket with hnone | hsome
      · exact hnone
      · have hone : s.socket.toList.count s.generation = 1 := by simp [hsome]
        unfold Session.openings at hzero
        dsimp only at hzero
        omega
    have hsockets := hpop.sockets
    dsimp only at hsockets
    rw [hnone] at hsockets
    exact
      { hpop with
        installed := by
          intro g' hmem
          rcases List.mem_cons.mp hmem with rfl | hold
          · exact ⟨hknown, fun _ => rfl⟩
          · refine ⟨(h.installed g' hold).1, fun hg' => ?_⟩
            have hsome := (h.installed g' hold).2 hg'
            rw [hnone] at hsome
            cases hsome
        detached := fun hdetached => by
          have hclash : s.attempt = false := hdetached
          rw [hattempt] at hclash
          cases hclash
        socket := .inr (congrArg some hg)
        sockets := by
          show g :: s.sockets = [g] ++ _
          rw [hsockets]
          rfl
        single := by
          show (g :: s.sockets).length ≤ 1
          rw [hsockets]
          exact Nat.le_refl 1
        once := by
          unfold Session.openings at hzero ⊢
          dsimp only at hzero ⊢
          rw [hg, Option.toList_some, List.count_singleton_self]
          omega
        connected := fun hstate => by
          rcases h.connected hstate with hfail | ⟨-, -, hsome⟩
          · rw [(h.owned hattempt).2] at hfail
            cases hfail
          · rw [hnone] at hsome
            cases hsome
        activated := nofun }
  · exact hpop

/-- An armed handshake timer is of the attempt that the session owns. -/
theorem SessionOk.handshake_current (h : SessionOk policy [] s) (hstack : s.stack = [])
    (hmem : g ∈ s.handshakes) :
    s.isCurrent g = true ∧ s.attempt = true ∧ s.handshakes = [g] := by
  have hattempt : s.attempt = true := by
    by_contra hfalse
    rw [(h.detached ((Bool.not_eq_true _).mp hfalse)).1] at hmem
    cases hmem
  have hphase : s.phase ≠ .active := by
    intro hactive
    rw [h.shaken hattempt hactive] at hmem
    cases hmem
  have hone := (h.handshake hattempt hphase).1
  have hg : g = s.generation := by
    rw [hone] at hmem
    exact List.mem_singleton.mp hmem
  have hopen : s.manuallyClosed = false := by
    by_contra htrue
    rcases h.manual ((Bool.not_eq_false _).mp htrue) with hframe | hdetached
    · rw [hstack] at hframe
      cases hframe
    · rw [hattempt] at hdetached
      cases hdetached
  exact ⟨Session.isCurrent_iff.mpr ⟨hg, hopen⟩, hattempt, by rw [hone, hg]⟩

/-- The handshake timer fires. -/
theorem SessionOk.handshakeFired (h : SessionOk policy [] s) (hstack : s.stack = [])
    (hmem : g ∈ s.handshakes) :
    SessionOk policy [] ({ s with handshakes := s.handshakes.erase g }.failAttempt g true) := by
  obtain ⟨hcurrent, hattempt, hone⟩ := h.handshake_current hstack hmem
  have hsame : { s with handshakes := s.handshakes.erase g }.failAttempt g true =
      s.failAttempt g true := by
    have hfires : { s with handshakes := s.handshakes.erase g }.isCurrent g = true := hcurrent
    have hcleared := h.cleared.1
    rw [hone] at hcleared
    unfold Session.failAttempt
    rw [if_pos hcurrent, if_pos hfires]
    simp only [Session.detachAttempt, Session.push, hone, List.erase_cons_head, clearTimer_nil,
      hcleared]
  rw [hsame]
  exact h.failAttempt (.inr ⟨(Session.isCurrent_iff.mp hcurrent).1, hattempt⟩) true

theorem SessionOk.reconnectFired (h : SessionOk policy [] s) (hstack : s.stack = [])
    (hmem : g ∈ s.reconnects) :
    SessionOk policy [] ({ s with reconnects := s.reconnects.erase g }.reconnectFired g) := by
  obtain hnone | ⟨hone, -, hattempt, hstate⟩ := h.armed
  · rw [hnone] at hmem
    cases hmem
  have hg : g = s.generation := by
    rw [hone] at hmem
    exact List.mem_singleton.mp hmem
  have hfailing : s.failing = false := by
    rw [Session.failing, hstack]
    rfl
  have hempty : s.reconnects.erase g = [] := by
    rw [hone, hg, List.erase_cons_head]
  have hbudget := h.budget
  rw [hone, List.length_singleton] at hbudget
  have hfired : ∀ n timer, n ≤ s.reopened + 1 → SessionOk policy [] { s with
      reconnects := s.reconnects.erase g, reconnectTimer := timer, reopened := n } := by
    intro n timer hn
    exact
      { h with
        armed := .inl hempty
        failed := fun hfail => by
          have hclash : s.failing = true := hfail
          rw [hfailing] at hclash
          cases hclash
        budget := by
          show n + (s.reconnects.erase g).length ≤ s.attempts
          rw [hempty]
          exact Nat.le_trans hn hbudget }
  unfold Session.reconnectFired
  split_ifs with hcurrent
  · exact SessionOk.openSocket (hfired (s.reopened + 1) none (Nat.le_refl _)) true hattempt hempty
      hfailing (Session.isCurrent_iff.mp hcurrent).2 nofun
  · exact hfired s.reopened s.reconnectTimer (Nat.le_succ _)

theorem SessionOk.stableFired (h : SessionOk policy [] s) (hmem : g ∈ s.stables) (isOpen : Bool) :
    SessionOk policy [] ({ s with stables := s.stables.erase g }.stableFired g isOpen) := by
  obtain hnone | ⟨hone, -, hphase⟩ := h.stable
  · rw [hnone] at hmem
    cases hmem
  have hg : g = s.generation := by
    rw [hone] at hmem
    exact List.mem_singleton.mp hmem
  have hattempt : s.attempt = true := by
    by_contra hfalse
    rw [(h.detached ((Bool.not_eq_true _).mp hfalse)).2.1] at hmem
    cases hmem
  have hempty : s.stables.erase g = [] := by
    rw [hone, hg, List.erase_cons_head]
  have hfired : ∀ timer, SessionOk policy [] { s with
      stables := s.stables.erase g, stableTimer := timer } := fun timer =>
    { h with
      detached := fun hdetached => by
        have hclash : s.attempt = false := hdetached
        rw [hattempt] at hclash
        cases hclash
      stable := .inl hempty }
  unfold Session.stableFired
  split_ifs
  · exact
      { hfired none with
        budget := by
          show 0 + s.reconnects.length ≤ 0
          rw [(h.owned hattempt).1]
          exact Nat.le_refl 0
        bounded := Nat.zero_le _ }
  · exact hfired none
  · exact hfired s.stableTimer

theorem SessionOk.sendFails (h : SessionOk policy [] s) (hsocket : s.socket ≠ none) :
    SessionOk policy [] (s.failAttempt s.generation true) := by
  have hattempt : s.attempt = true := by
    by_contra hfalse
    exact hsocket (h.detached ((Bool.not_eq_true _).mp hfalse)).2.2
  exact h.failAttempt (.inr ⟨rfl, hattempt⟩) true

end Events

/-- The calls of `connect` that the invariant leaves room for. -/
def SessionAction.Outside (s : Session) : SessionAction → Prop
  | .connect => s.failing = false
  | _ => True

instance (s : Session) : ∀ action : SessionAction, Decidable (action.Outside s)
  | .connect => inferInstanceAs (Decidable (s.failing = false))
  | .close | .sendFails | .listenersReturn .. | .factoryReturns | .factoryThrows |
    .credential .. | .handshakeTimeout _ | .reconnectTimeout _ | .stableTimeout .. | .message .. |
    .socketError _ | .socketClosed .. => isTrue trivial

instance (policy : ReconnectPolicy) (s s' : Session) (action : SessionAction) :
    Decidable (SessionStep policy s action s') :=
  inferInstanceAs (Decidable (s.next policy action = some s'))

/-- What one step keeps. -/
theorem SessionOk.step {policy : ReconnectPolicy} {s s' : Session} {action : SessionAction}
    (h : SessionOk policy [] s) (houtside : action.Outside s)
    (hstep : SessionStep policy s action s') : SessionOk policy [] s' := by
  unfold SessionStep at hstep
  cases action with
  | connect =>
      cases hstep
      exact h.connect houtside
  | close =>
      cases hstep
      exact h.close
  | sendFails =>
      obtain ⟨hsend, hs'⟩ := Option.ite_none_right_eq_some.mp hstep
      cases hs'
      exact h.sendFails hsend.2
  | listenersReturn sent random =>
      cases hstack : s.stack with
      | nil => simp [Session.next, hstack] at hstep
      | cons frame rest =>
          cases hfactory : frame.isFactory with
          | true =>
              cases frame with
              | factory => simp [Session.next, hstack] at hstep
              | opening | activated | dispatching | failing | closing | closed => cases hfactory
          | false =>
              have hs' : s' = { s with stack := rest }.resume policy sent random frame := by
                cases frame with
                | factory => cases hfactory
                | opening | activated | dispatching | failing | closing | closed =>
                    simpa [Session.next, hstack] using hstep.symm
              rw [hs']
              exact h.resume hstack hfactory sent random
  | factoryReturns =>
      simp only [Session.next] at hstep
      split at hstep
      · rename_i g rest hstack
        cases hstep
        exact h.socketMade hstack
      · cases hstep
  | factoryThrows =>
      simp only [Session.next] at hstep
      split at hstep
      · rename_i g rest hstack
        cases hstep
        exact SessionOk.failAttempt (h.pop hstack nofun nofun)
          (h.frames (.factory g) (hstack ▸ List.mem_cons_self) g rfl) true
      · cases hstep
  | credential g outcome =>
      obtain ⟨hwaits, hs'⟩ := Option.ite_none_right_eq_some.mp hstep
      cases hs'
      exact h.credentialSettled hwaits.1 hwaits.2 outcome
  | handshakeTimeout g =>
      obtain ⟨hwaits, hs'⟩ := Option.ite_none_right_eq_some.mp hstep
      cases hs'
      exact h.handshakeFired hwaits.1 hwaits.2
  | reconnectTimeout g =>
      obtain ⟨hwaits, hs'⟩ := Option.ite_none_right_eq_some.mp hstep
      cases hs'
      exact h.reconnectFired hwaits.1 hwaits.2
  | stableTimeout g isOpen =>
      obtain ⟨hwaits, hs'⟩ := Option.ite_none_right_eq_some.mp hstep
      cases hs'
      exact h.stableFired hwaits.2 isOpen
  | message g incoming =>
      obtain ⟨hwaits, hs'⟩ := Option.ite_none_right_eq_some.mp hstep
      cases hs'
      split_ifs with hcurrent
      · exact h.handleMessage hwaits.1 hwaits.2 (Session.isCurrent_iff.mp hcurrent).1 incoming
      · exact h
  | socketError g =>
      obtain ⟨hwaits, hs'⟩ := Option.ite_none_right_eq_some.mp hstep
      cases hs'
      exact h.failAttempt (h.installed g hwaits.2).1 true
  | socketClosed g terminal =>
      obtain ⟨hwaits, hs'⟩ := Option.ite_none_right_eq_some.mp hstep
      cases hs'
      exact h.failAttempt (h.installed g hwaits.2).1 !terminal

/-- A session that was just constructed. -/
theorem SessionOk.new (policy : ReconnectPolicy) : SessionOk policy [] {} where
  frames := nofun
  credentials := nofun
  installed := nofun
  detached _ := ⟨rfl, rfl, rfl⟩
  handshake := nofun
  shaken := nofun
  stable := .inl rfl
  socket := .inl rfl
  armed := .inl rfl
  sockets := rfl
  single := Nat.zero_le 1
  once := Nat.zero_le 1
  bottom := nofun
  failed := nofun
  alone := Nat.zero_le 1
  live := nofun
  connecting := nofun
  connected := nofun
  activated := nofun
  manual := nofun
  budget := Nat.le_refl 0
  bounded := Nat.zero_le _
  delays := nofun
  resolutions := nofun

end Client
end ChatEngine
