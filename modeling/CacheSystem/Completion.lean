import CacheSystem.Client

/-!
# How often a request is completed (`protobuf_message_client_impl.h`)

`process_response` calls the handle, then sends the acknowledgement, and `on_receive` erases the
request after both. A send that throws leaves the request where it is, and the next copy of the
answer calls the handle again.

* `ClientRun` : a client with the calls made into it and the handles it has invoked, each beside
  the message it was invoked for. `ClientReachable` are the runs: calls with pairwise different op
  ids, and datagrams with any contents.
* `Acked` : no acknowledgement fails. `Once` is the invariant of the runs that meet it.
* `completedOnce_of_acked`, `not_completedOnce` : what holds with the condition, and fails without.
-/

namespace CacheSystem

/-! ## Runs of a client -/

/-- A call into a client, or a datagram for it. -/
inductive ClientOp
  | read (opId : UInt64) (cacheId : UInt32) (timestamp : Int) (sendFails : Bool)
  | update (opId : UInt64) (cacheId : UInt32) (cacheData : CacheData) (timestamp : Int)
      (sendFails : Bool)
  /-- `none` is a datagram that does not parse. -/
  | receive (data : Option CacheMessage) (sendFails : Bool)

/-- A client and its history. -/
structure ClientRun where
  client : Client := {}
  /-- The operations called for. -/
  calls : List CacheClientOperation := []
  /-- The handles invoked, with the messages they were invoked for. -/
  handled : List (Handled × CacheMessage) := []

/-- A call with an op id that no call had. -/
def ClientRun.call (op : CacheClientOperation) (turn : ClientTurn) (s : ClientRun) :
    Option ClientRun :=
  if ∃ c ∈ s.calls, c.opId = op.opId then none
  else some { s with client := turn.client, calls := s.calls ++ [op] }

/-- What a client does in its loop; an exception is caught there. -/
def ClientRun.step (s : ClientRun) : ClientOp → Option ClientRun
  | .read opId cacheId timestamp sendFails =>
      s.call { opId, cacheId } (s.client.readCacheAsync sendFails opId cacheId timestamp)
  | .update opId cacheId cacheData timestamp sendFails =>
      s.call { opId, cacheId }
        (s.client.updateCacheAsync sendFails opId cacheId cacheData timestamp)
  | .receive data sendFails =>
      let turn := s.client.onReceive sendFails data
      some { s with
        client := turn.client
        handled := s.handled ++ turn.handled.map fun h => (h, data.getD {}) }

/-- The states of the runs whose steps all meet the condition `ok`. -/
inductive ClientReachable (ok : ClientRun → ClientOp → Prop) : ClientRun → Prop
  | initial : ClientReachable ok {}
  | step {s s' : ClientRun} (op : ClientOp) :
      ClientReachable ok s → ok s op → s.step op = some s' → ClientReachable ok s'

/-- How often the handle of the request with this op id was invoked. -/
def ClientRun.completions (s : ClientRun) (opId : UInt64) : Nat :=
  s.handled.countP fun x => x.1.opId = opId

/-- The message is the answer to the request it completed: it has the right magic, the op id of the
request, and an `op_response` with the cache id that was asked for. -/
def OwnAnswer (calls : List CacheClientOperation) (h : Handled) (m : CacheMessage) : Prop :=
  ∃ header r, m.header = some header ∧ header.magic = headerMagic ∧ header.opId = h.opId ∧
    m.opResponse = some r ∧ { opId := h.opId, cacheId := r.cacheId } ∈ calls

/-! ## What a datagram can do -/

/-- The datagram is an answer to a request that waits. -/
def Client.Answers (c : Client) (m : CacheMessage) : Prop :=
  headerAvailable m = true ∧ ∃ op r, c.requests m.opId = some op ∧ m.opResponse = some r ∧
    r.cacheId = op.cacheId

/-- All that a datagram does to a client. -/
inductive ClientReceive (sendFails : Bool) (data : Option CacheMessage) (c : Client) :
    ClientTurn → Prop
  /-- No handle is invoked. -/
  | ignored {turn} (hclient : turn.client = c) (hhandled : turn.handled = []) :
      ClientReceive sendFails data c turn
  /-- The handle of the request is invoked, and the request is erased unless the acknowledgement
  failed. -/
  | answered {turn m op r} (hdata : data = some m) (havailable : headerAvailable m = true)
      (hop : c.requests m.opId = some op) (hr : m.opResponse = some r)
      (hid : r.cacheId = op.cacheId)
      (hclient : turn.client = if sendFails then c else c.erase m.opId)
      (hhandled : turn.handled = [{ opId := op.opId, result := r.result, expire := r.expire,
                                    cacheId := r.cacheId, cacheData := r.cacheData }]) :
      ClientReceive sendFails data c turn

/-- An acknowledgement has a header, so only the socket can fail it. -/
theorem clientSend_ack (sendFails : Bool) (opId : UInt64) (header : Option CacheMessageHeader) :
    (clientSend sendFails (ackMessage opId header)).1 = none ↔ sendFails = false := by
  cases sendFails <;> simp [clientSend, ackMessage, CacheMessage.isEmpty]

/-- Taking in a datagram does one of these to a client. -/
theorem clientReceive_cases (sendFails : Bool) (data : Option CacheMessage) (c : Client) :
    ClientReceive sendFails data c (c.onReceive sendFails data) := by
  unfold Client.onReceive
  rcases data with _ | m
  · exact .ignored rfl rfl
  · dsimp only
    split
    · exact .ignored rfl rfl
    · rename_i havailable
      rcases hop : c.requests m.opId with _ | op
      · exact .ignored rfl rfl
      · dsimp only
        unfold CacheClientOperation.processResponse
        rcases hr : m.opResponse with _ | r
        · exact .ignored rfl rfl
        · dsimp only
          split
          · exact .ignored rfl rfl
          · rename_i hid
            refine .answered rfl (by simpa using havailable) hop hr (not_not.mp hid).symm ?_ rfl
            simp only [clientSend_ack]
            cases sendFails <;> rfl

/-! ## Every handle is invoked for an answer to its request -/

/-- What holds of every run. -/
structure Attributed (s : ClientRun) : Prop where
  waiting : ∀ opId op, s.client.requests opId = some op → op ∈ s.calls
  own : ∀ x ∈ s.handled, OwnAnswer s.calls x.1 x.2

variable {ok : ClientRun → ClientOp → Prop} {s s' : ClientRun}

/-- All that a call does: one more operation is called for, and waits. -/
theorem ClientRun.call_spec {op : CacheClientOperation} {turn : ClientTurn}
    (h : s.call op turn = some s') (hturn : turn.client = s.client.emplace op) :
    (∀ c ∈ s.calls, c.opId ≠ op.opId) ∧ s'.calls = s.calls ++ [op] ∧ s'.handled = s.handled ∧
      s'.client = s.client.emplace op := by
  unfold call at h
  split at h
  · cases h
  · rename_i hnew
    cases h
    exact ⟨fun c hc hid => hnew ⟨c, hc, hid⟩, rfl, rfl, hturn⟩

/-- A request that waits after an `emplace` waited before, or is the new one. -/
theorem Client.emplace_requests {c : Client} {op op' : CacheClientOperation} {opId : UInt64}
    (h : (c.emplace op).requests opId = some op') : c.requests opId = some op' ∨ op' = op := by
  unfold emplace at h
  split at h
  · rcases Lib.Table.of_assign h with ⟨-, rfl⟩ | ⟨-, h⟩
    · exact Or.inr rfl
    · exact Or.inl h
  · exact Or.inl h

/-- The three kinds of steps as two. -/
theorem ClientRun.step_cases {op : ClientOp} (h : s.step op = some s') :
    (∃ call, (∀ c ∈ s.calls, c.opId ≠ call.opId) ∧ s'.calls = s.calls ++ [call] ∧
      s'.handled = s.handled ∧ s'.client = s.client.emplace call) ∨
    ∃ data sendFails turn, op = .receive data sendFails ∧
      ClientReceive sendFails data s.client turn ∧ s'.calls = s.calls ∧ s'.client = turn.client ∧
      s'.handled = s.handled ++ turn.handled.map fun h => (h, data.getD {}) := by
  cases op with
  | read opId cacheId timestamp sendFails => exact Or.inl ⟨_, call_spec h rfl⟩
  | update opId cacheId cacheData timestamp sendFails => exact Or.inl ⟨_, call_spec h rfl⟩
  | receive data sendFails =>
      cases h
      exact Or.inr ⟨data, sendFails, _, rfl, clientReceive_cases sendFails data s.client, rfl, rfl, rfl⟩

/-- An answer stays the answer when more is asked. -/
theorem OwnAnswer.mono {calls : List CacheClientOperation} {h : Handled} {m : CacheMessage}
    (hown : OwnAnswer calls h m) (op : CacheClientOperation) : OwnAnswer (calls ++ [op]) h m := by
  obtain ⟨header, r, hheader, hmagic, hid, hr, hmem⟩ := hown
  exact ⟨header, r, hheader, hmagic, hid, hr, List.mem_append_left _ hmem⟩

/-- What `header_available` has checked. -/
theorem headerAvailable_header {m : CacheMessage} (h : headerAvailable m = true) :
    ∃ header, m.header = some header ∧ header.magic = headerMagic ∧ header.opId = m.opId := by
  unfold headerAvailable at h
  rcases hheader : m.header with _ | header
  · rw [hheader] at h
    cases h
  · rw [hheader] at h
    dsimp only at h
    split at h
    · cases h
    · rename_i hmagic
      exact ⟨header, rfl, (not_not.mp hmagic).symm, by simp [CacheMessage.opId, hheader]⟩

/-- A step keeps every completion attributed. -/
theorem Attributed.step (h : Attributed s) {op : ClientOp} (hstep : s.step op = some s') :
    Attributed s' := by
  rcases ClientRun.step_cases hstep with
    ⟨call, -, hcalls, hhandled, hclient⟩ | ⟨data, sendFails, turn, -, hturn, hcalls, hclient, hhandled⟩
  · refine ⟨fun opId op' hop => ?_, fun x hx => ?_⟩
    · rw [hclient] at hop
      rw [hcalls]
      rcases Client.emplace_requests hop with hop | rfl
      · exact List.mem_append_left _ (h.waiting opId op' hop)
      · exact List.mem_append_right _ (List.mem_singleton_self _)
    · rw [hhandled] at hx
      rw [hcalls]
      exact (h.own x hx).mono call
  · cases hturn with
    | ignored hsame hnone =>
        refine ⟨?_, ?_⟩
        · rw [hclient, hsame, hcalls]
          exact h.waiting
        · rw [hhandled, hnone, hcalls, List.map_nil, List.append_nil]
          exact h.own
    | @answered m op r hdata havailable hop hr hid hsame hone =>
        refine ⟨fun opId op' hop' => ?_, fun x hx => ?_⟩
        · rw [hclient, hsame] at hop'
          rw [hcalls]
          cases sendFails with
          | true => exact h.waiting opId op' hop'
          | false => exact h.waiting opId op' (Lib.Table.of_erase hop').2
        · rw [hhandled, hone] at hx
          rw [hcalls]
          rcases List.mem_append.mp hx with hx | hx
          · exact h.own x hx
          · rw [List.mem_singleton.mp hx, hdata]
            obtain ⟨header, hheader, hmagic, hopId⟩ := headerAvailable_header havailable
            have hkey := s.client.keyed m.opId op hop
            refine ⟨header, r, hheader, hmagic, hopId.trans hkey.symm, hr, ?_⟩
            rw [hid]
            exact h.waiting m.opId op hop

/-- In every run every completion is attributed. -/
theorem ClientReachable.attributed (h : ClientReachable ok s) : Attributed s := by
  induction h with
  | initial => exact ⟨fun _ _ h => (nomatch h), fun _ h => (nomatch h)⟩
  | step op _ _ hstep ih => exact ih.step hstep

/-! ## Every handle is invoked once -/

/-- The acknowledgement of an answer does not fail. -/
def Acked (s : ClientRun) (op : ClientOp) : Prop :=
  ∀ m sendFails, op = .receive (some m) sendFails → s.client.Answers m → sendFails = false

/-- A handle was invoked once at most, and then its request waits no more. -/
def Once (s : ClientRun) : Prop :=
  ∀ opId, s.completions opId = 0 ∨ (s.completions opId = 1 ∧ s.client.requests opId = none)

/-- A handle that was invoked belongs to a call. -/
theorem Attributed.called (h : Attributed s) {opId : UInt64} (hne : s.completions opId ≠ 0) :
    ∃ c ∈ s.calls, c.opId = opId := by
  obtain ⟨x, hx, hid⟩ := List.countP_pos_iff.mp (Nat.pos_of_ne_zero hne)
  obtain ⟨header, r, -, -, -, -, hmem⟩ := h.own x hx
  exact ⟨_, hmem, by simpa using hid⟩

/-- An `emplace` under another op id. -/
theorem Client.emplace_of_ne (c : Client) {op : CacheClientOperation} {opId : UInt64}
    (h : opId ≠ op.opId) : (c.emplace op).requests opId = c.requests opId := by
  unfold emplace
  split
  · exact Function.update_of_ne h _ _
  · rfl

/-- A step whose acknowledgement does not fail completes no request twice. -/
theorem Once.step (h : Once s) (hown : Attributed s) {op : ClientOp} (hacked : Acked s op)
    (hstep : s.step op = some s') : Once s' := by
  intro opId
  rcases ClientRun.step_cases hstep with
    ⟨call, hnew, hcalls, hhandled, hclient⟩ | ⟨data, sendFails, turn, hop, hturn, hcalls, hclient, hhandled⟩
  · have hsame : s'.completions opId = s.completions opId := by
      unfold ClientRun.completions
      rw [hhandled]
    rw [hsame, hclient]
    rcases h opId with h0 | ⟨h1, hnone⟩
    · exact Or.inl h0
    · -- a request that was completed is an older one
      have hne : s.completions opId ≠ 0 := by omega
      obtain ⟨c, hc, rfl⟩ := hown.called hne
      exact Or.inr ⟨h1, by rw [Client.emplace_of_ne _ (hnew c hc), hnone]⟩
  · cases hturn with
    | ignored hsame hnone =>
        unfold ClientRun.completions
        rw [hhandled, hnone, hclient, hsame, List.map_nil, List.append_nil]
        exact h opId
    | @answered m op' r hdata havailable hreq hr hid hsame hone =>
        have hsent : sendFails = false :=
          hacked m sendFails (by rw [hop, hdata]) ⟨havailable, op', r, hreq, hr, hid⟩
        have hkey : op'.opId = m.opId := s.client.keyed m.opId op' hreq
        have hcount : s'.completions opId = s.completions opId + if m.opId = opId then 1 else 0 := by
          unfold ClientRun.completions
          rw [hhandled, hone, List.countP_append, List.map_singleton, List.countP_singleton]
          simp only [hkey, decide_eq_true_eq]
        have hclient' : s'.client.requests = Function.update s.client.requests m.opId none := by
          rw [hclient, hsame, hsent]
          rfl
        rw [hcount, hclient']
        by_cases hm : m.opId = opId
        · -- the request waited, so its handle had not been invoked
          subst hm
          rcases h m.opId with h0 | ⟨-, hnone⟩
          · exact Or.inr ⟨by rw [h0, if_pos rfl], Function.update_self ..⟩
          · rw [hreq] at hnone
            cases hnone
        · rw [if_neg hm, Nat.add_zero, Function.update_of_ne (Ne.symm hm)]
          exact h opId

/-- Every request is completed once at most, and only by its own answer, in the runs whose steps
meet `ok`. -/
def CompletedOnce (ok : ClientRun → ClientOp → Prop) : Prop :=
  ∀ s, ClientReachable ok s → (∀ c ∈ s.calls, s.completions c.opId ≤ 1) ∧
    ∀ x ∈ s.handled, OwnAnswer s.calls x.1 x.2

/-- In every run whose acknowledgements do not fail no request is completed twice. -/
theorem ClientReachable.once (hok : ∀ s op, ok s op → Acked s op) (h : ClientReachable ok s) :
    Once s := by
  induction h with
  | initial => exact fun opId => Or.inl rfl
  | step op hreach hop hstep ih => exact ih.step hreach.attributed (hok _ op hop) hstep

/-- **Every request is completed once at most, and only by its own answer**, in every run in which
no acknowledgement fails. -/
theorem completedOnce_of_acked (hok : ∀ s op, ok s op → Acked s op) : CompletedOnce ok := by
  intro s hreach
  refine ⟨fun c _ => ?_, hreach.attributed.own⟩
  rcases hreach.once hok c.opId with h0 | ⟨h1, -⟩ <;> omega

/-- An answer to the operation 11 about the cache id 1. -/
def answerTo11 : CacheMessage :=
  prepareResponseMessage (some (prepareHeader kReadRequest 11 none)) kReadResponse
    (prepareOpResponse 10000 1 [5] .kOperationOk)

/-- A second copy of an answer that was acknowledged, as a case of `completedOnce_of_acked`. -/
theorem completedOnce_of_acked_copy : ∃ s, ClientReachable Acked s ∧ s.completions 11 = 1 ∧
    ∀ x ∈ s.handled, OwnAnswer s.calls x.1 x.2 := by
  obtain ⟨s, hreach, hcount⟩ : ∃ s, ClientReachable Acked s ∧ s.completions 11 = 1 := by
    refine ⟨_, .step (.receive (some answerTo11) false) (.step (.receive (some answerTo11) false)
      (.step (.read 11 1 0 false) .initial ?_ rfl) ?_ rfl) ?_ rfl, ?_⟩
    · exact fun _ _ h => nomatch h
    · rintro _ _ ⟨⟩ _
      rfl
    · rintro _ _ ⟨⟩ _
      rfl
    · decide
  exact ⟨s, hreach, hcount, (completedOnce_of_acked (fun _ _ h => h) s hreach).2⟩

/-- The acknowledgement of the first copy of an answer fails, and the second copy completes the
request again. -/
theorem not_completedOnce : ¬ CompletedOnce fun _ _ => True := by
  intro h
  obtain ⟨s, hreach, hcall, hcount⟩ : ∃ s, ClientReachable (fun _ _ => True) s ∧
      ({ opId := 11, cacheId := 1 } : CacheClientOperation) ∈ s.calls ∧ s.completions 11 = 2 := by
    refine ⟨_, .step (.receive (some answerTo11) false) (.step (.receive (some answerTo11) true)
      (.step (.read 11 1 0 false) .initial trivial rfl) trivial rfl) trivial rfl, ?_, ?_⟩ <;> decide
  have hle := (h s hreach).1 _ hcall
  rw [hcount] at hle
  omega

end CacheSystem
