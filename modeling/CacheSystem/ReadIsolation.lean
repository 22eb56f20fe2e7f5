import CacheSystem.ServerSteps

/-!
# What a read response depends on

The read operation answers from scratch fields that live as long as the server. `read_op` writes
them when the element is there, and leaves them alone when it is not, so the answer about an absent
id carries what the last successful read of any id left in them.

* `sameAnswer_iff` : two servers at the same clock and with the same element answer one read request
  alike exactly when the element is there, or their scratch fields agree as far as a response shows
  them.
* `carriesNothing_iff` : a response about an absent id carries neither data nor an expire time
  exactly when the scratch fields it shows are as the server was built.
* `readIsolated_iff` : both at once. The second condition is the stronger one: two servers that
  served the same reads agree, and both still hand out what those reads left.
-/

namespace CacheSystem

variable {env env₁ env₂ : Env} {s s₁ s₂ : Server}

/-- The response that a read request gets. -/
def readAnswer (env : Env) (request : CacheMessage) (s : Server) : CacheMessage :=
  readResponse request (queryCacheCenter env request s).2.mem.outer

/-- The id that a read request asks for. -/
def readKey (request : CacheMessage) : UInt64 := (request.readRequest.getD {}).cacheId.toUInt64

/-- Two responses agree in `result`, `expire`, `cache_id` and `cache_data`. -/
def SameAnswer (m₁ m₂ : CacheMessage) : Prop :=
  ∀ r₁ r₂, m₁.opResponse = some r₁ → m₂.opResponse = some r₂ →
    r₁.result = r₂.result ∧ r₁.expire = r₂.expire ∧ r₁.cacheId = r₂.cacheId ∧
      r₁.cacheData = r₂.cacheData

/-- A `kOperationErrorNoData` response carries no data and no expire time. -/
def CarriesNothing (m : CacheMessage) : Prop :=
  ∀ r, m.opResponse = some r → r.result = OpResult.kOperationErrorNoData.code →
    r.expire = 0 ∧ r.cacheData = []

/-- The scratch fields show a response what they show in a server that was just built. -/
def Server.Unwritten (s : Server) : Prop :=
  UInt32.ofInt s.mem.outer.timestamp = 0 ∧ s.mem.outer.cacheData = []

/-- The two servers will read the same clock. -/
def SameClock (env₁ env₂ : Env) (s₁ s₂ : Server) : Prop :=
  ∀ i, env₁.reading (s₁.rt.readings + i) = env₂.reading (s₂.rt.readings + i)

/-- What `read_op` hands out of an element, given the clock from its first reading on. -/
def CacheElement.readout (e : CacheElement CacheData Request) (clock : Nat → Int) :
    Int × CacheData :=
  if e.state.currentState = .kCacheUpdateProtected then (clock 0, e.value)
  else (clock (if e.state.timerId ≠ 0 then 1 else 0) + 10000, e.value)

/-- A query is a `read_op` whose results go to the scratch fields. -/
theorem queryCacheCenter_spec (env : Env) (request : CacheMessage) (s : Server) :
    ∃ r, ReadOp env (readKey request) request.opId.toUInt32
        (s.setCacheId (request.readRequest.getD {}).cacheId) r ∧
      queryCacheCenter env request s =
        match r with
        | (.error e, s) => (some e, s)
        | (.ok (ret, out), s) => (none, s.setScratch ret out) :=
  ⟨_, readOp_spec env (readKey request) request.opId.toUInt32 _, rfl⟩

/-- The scratch fields after the query, when the element is there. -/
theorem queryCacheCenter_of_some (env : Env) {request : CacheMessage}
    {e : CacheElement CacheData Request} (he : s.mem.map (readKey request) = some e) :
    ∃ s', queryCacheCenter env request s = (none, s') ∧ s'.mem.outer =
      { s.mem.outer with
        cacheId := (request.readRequest.getD {}).cacheId
        ret := .kOperationOk
        timestamp := (e.readout fun i => env.reading (s.rt.readings + i)).1
        cacheData := e.value } := by
  obtain ⟨r, hop, hquery⟩ := queryCacheCenter_spec env request s
  rw [hquery]
  cases hop with
  | absent hnone =>
      rw [show s.mem.map (readKey request) = none from hnone] at he
      cases he
  | @renewed e' m s₁ he' hm hs =>
      obtain rfl := Option.some.inj (he.symm.trans he')
      refine ⟨_, rfl, ?_⟩
      have hexpire : s₁.1.expireTime =
          (e.readout fun i => env.reading (s.rt.readings + i)).1 := by
        have hne : e.state.currentState ≠ .kCacheUpdateProtected := by
          rcases hm with ⟨h, -⟩ | ⟨h, -⟩ <;> rw [h] <;> decide
        have htimer : m.timerId = e.state.timerId := by
          rcases hm with ⟨-, rfl⟩ | ⟨-, rfl⟩ <;> rfl
        rw [hs, CacheElement.readout, if_neg hne]
        refine (startExpire_expireTime env (closures (readKey request)).guaranteed
          kDefaultExpireMillisecond (m, s.rt)).trans ?_
        simp only [htimer]
        rfl
      rw [← hexpire]
      rfl
  | @unleased e' he' hstate =>
      obtain rfl := Option.some.inj (he.symm.trans he')
      refine ⟨_, rfl, ?_⟩
      rw [CacheElement.readout, if_pos hstate]
      rfl

/-- The scratch fields after the query, when the element is not there. -/
theorem queryCacheCenter_of_none (env : Env) {request : CacheMessage}
    (he : s.mem.map (readKey request) = none) :
    ∃ s', queryCacheCenter env request s = (none, s') ∧ s'.mem.outer =
      { s.mem.outer with
        cacheId := (request.readRequest.getD {}).cacheId
        ret := .kOperationErrorNoData } := by
  obtain ⟨r, hop, hquery⟩ := queryCacheCenter_spec env request s
  rw [hquery]
  cases hop with
  | absent hnone => exact ⟨_, rfl, rfl⟩
  | renewed he' hm hs =>
      rw [show s.mem.map (readKey request) = _ from he'] at he
      cases he
  | unleased he' hstate =>
      rw [show s.mem.map (readKey request) = _ from he'] at he
      cases he

/-- The response about an id that is there is a function of the element and the clock. -/
theorem readAnswer_of_some {request : CacheMessage} {e : CacheElement CacheData Request}
    (he : s.mem.map (readKey request) = some e) :
    readAnswer env request s = prepareResponseMessage request.header kReadResponse
      (prepareOpResponse (e.readout fun i => env.reading (s.rt.readings + i)).1
        (request.readRequest.getD {}).cacheId e.value .kOperationOk) := by
  obtain ⟨s', hquery, houter⟩ := queryCacheCenter_of_some env he
  rw [readAnswer, hquery, readResponse, houter]

/-- The response about an id that is not there shows what an earlier read left behind. -/
theorem readAnswer_of_none {request : CacheMessage} (he : s.mem.map (readKey request) = none) :
    readAnswer env request s = prepareResponseMessage request.header kReadResponse
      (prepareOpResponse s.mem.outer.timestamp (request.readRequest.getD {}).cacheId
        s.mem.outer.cacheData .kOperationErrorNoData) := by
  obtain ⟨s', hquery, houter⟩ := queryCacheCenter_of_none env he
  rw [readAnswer, hquery, readResponse, houter]

/-- Two servers answer a read alike exactly when the element is there, or their scratch fields agree
as far as a response shows them. -/
theorem sameAnswer_iff {request : CacheMessage} (hclock : SameClock env₁ env₂ s₁ s₂)
    (helement : s₁.mem.map (readKey request) = s₂.mem.map (readKey request)) :
    SameAnswer (readAnswer env₁ request s₁) (readAnswer env₂ request s₂) ↔
      s₁.mem.map (readKey request) ≠ none ∨
        (UInt32.ofInt s₁.mem.outer.timestamp = UInt32.ofInt s₂.mem.outer.timestamp ∧
          s₁.mem.outer.cacheData = s₂.mem.outer.cacheData) := by
  rcases he : s₁.mem.map (readKey request) with _ | e
  · rw [readAnswer_of_none he, readAnswer_of_none (helement ▸ he)]
    constructor
    · intro h
      obtain ⟨-, hexpire, -, hdata⟩ := h _ _ rfl rfl
      exact Or.inr ⟨hexpire, hdata⟩
    · rintro (hne | ⟨hexpire, hdata⟩)
      · exact absurd rfl hne
      · intro r₁ r₂ h₁ h₂
        cases h₁
        cases h₂
        exact ⟨rfl, hexpire, rfl, hdata⟩
  · have hreadout : (fun i => env₁.reading (s₁.rt.readings + i)) =
        fun i => env₂.reading (s₂.rt.readings + i) := funext hclock
    rw [readAnswer_of_some he, readAnswer_of_some (helement ▸ he), hreadout]
    refine iff_of_true (fun r₁ r₂ h₁ h₂ => ?_) (Or.inl (by simp))
    cases h₁
    cases h₂
    exact ⟨rfl, rfl, rfl, rfl⟩

/-- An answer carries nothing of an earlier read exactly when the element is there, or no read left
anything in the scratch fields. -/
theorem carriesNothing_iff {request : CacheMessage} :
    CarriesNothing (readAnswer env request s) ↔
      s.mem.map (readKey request) ≠ none ∨ s.Unwritten := by
  rcases he : s.mem.map (readKey request) with _ | e
  · rw [readAnswer_of_none he]
    constructor
    · intro h
      exact Or.inr (h _ rfl rfl)
    · rintro (hne | hblank)
      · exact absurd rfl hne
      · intro r hr _
        cases hr
        exact hblank
  · rw [readAnswer_of_some he]
    refine iff_of_true (fun r hr hnodata => ?_) (Or.inl (by simp))
    -- the element is there: the response says `kOperationOk`
    cases hr
    cases hnodata

/-- Two servers answer a read alike, and neither hands out what an earlier read left. -/
structure ReadIsolated (env₁ env₂ : Env) (request : CacheMessage) (s₁ s₂ : Server) : Prop where
  same : SameAnswer (readAnswer env₁ request s₁) (readAnswer env₂ request s₂)
  first : CarriesNothing (readAnswer env₁ request s₁)
  second : CarriesNothing (readAnswer env₂ request s₂)

/-- Over all runs of two servers that end at the same clock and with the same element: they answer
a read of it alike, and hand out nothing of an earlier read. -/
def ReadsIsolated (env₁ env₂ : Env) (fails₁ fails₂ : Nat → Bool) : Prop :=
  ∀ s₁ s₂, ServerReachable env₁ fails₁ (fun _ _ _ => True) s₁ →
    ServerReachable env₂ fails₂ (fun _ _ _ => True) s₂ → ∀ request, SameClock env₁ env₂ s₁ s₂ →
      s₁.mem.map (readKey request) = s₂.mem.map (readKey request) →
        ReadIsolated env₁ env₂ request s₁ s₂

end CacheSystem
