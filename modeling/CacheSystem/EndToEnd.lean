import Mathlib.Data.List.Forall2
import CacheSystem.Bytes
import CacheSystem.LowBits

/-!
# From bytes to registers

`Linearizability` speaks of messages that parse or do not, of op ids whose low bits differ, and of
update requests that reach the server once. Here the same is said of what is there to begin with:
bytes in flight, buffers that keep what was read before, and clients that number their calls with
their generators. The network may lose, delay and reorder all bytes and repeat all but those of an
update request; what does not fit into the buffer or has a zero byte in it is lost at the receiver.

* `ByteSerial` : what is asked of a step in bytes.
* `byteHistory` : the calls of a run in bytes, and what is told.
* `Unrepeated` : a network that repeats no update request delivers none of them twice.
* `ByteRuns.messages` : a run in bytes is a run in messages with the same history.
* `bytes_linearizable` : the result.
-/

namespace CacheSystem

open Lib.Concurrent

variable {parse : List UInt8 → Option CacheMessage} {env : Env} {fails : Nat → Bool}

/-! ## Runs in bytes -/

/-- What is parsed of the bytes that reach this socket. -/
def SocketBuffer.parsed (parse : List UInt8 → Option CacheMessage) (buffer : SocketBuffer)
    (bytes : List UInt8) : Option CacheMessage :=
  match (buffer.onReceive bytes).1 with
  | .error _ => none
  | .ok string => parse string

/-- Server turns are punctual, no update request is repeated, and acknowledgements are sent. -/
def ByteSerial (parse : List UInt8 → Option CacheMessage) (env : Env) (fails : Nat → Bool)
    (b : ByteSystem) : ByteOp → Prop
  | .call _ _ => True
  | .deliver (.request sender bytes) keep _ =>
      Punctual env fails b.server (.receive sender (b.serverBuffer.parsed parse bytes)) ∧
        ∀ m, bytes = serialize m → m.updateRequest ≠ none → keep = false
  | .deliver (.response _ _) _ sendFails => sendFails = false
  | .drop _ => True
  | .tick fuel => Punctual env fails b.server (.tick fuel)

/-- The states of a run in bytes: those that it has left, and the one that it has come to. -/
inductive ByteRuns (parse : List UInt8 → Option CacheMessage) (env : Env) (fails : Nat → Bool)
    (ok : ByteSystem → ByteOp → Prop) : List ByteSystem → ByteSystem → Prop
  | initial : ByteRuns parse env fails ok [] {}
  | step {past : List ByteSystem} {b b' : ByteSystem} (op : ByteOp) :
      ByteRuns parse env fails ok past b → ok b op → b.step parse env fails op = some b' →
        ByteRuns parse env fails ok (past ++ [b]) b'

/-- The clients and the server, without what is in flight. -/
def ByteSystem.ends (b : ByteSystem) : System where
  server := b.server
  clients := b.clients
  calls := b.calls
  handled := b.handled

/-- The calls of a run in bytes. -/
def byteHistory (past : List ByteSystem) (b : ByteSystem) :
    History Call (UInt32 × CallKind) (UInt32 × Option CacheData) :=
  systemHistory (past.map ByteSystem.ends) b.ends

/-! ## Copies -/

/-- The copies of a request, in flight or at the server. -/
def System.copies (g : Request) (t : System) : Nat :=
  t.inFlight.count (.request g) + t.delivered.count g

variable {g : Request} {t t' : System} {past : List System}

/-- Taking a datagram makes no copy. -/
theorem copies_take_le (d : Datagram) (keep : Bool) : (t.take d keep).copies g ≤ t.copies g := by
  unfold System.copies
  rw [take_delivered]
  refine Nat.add_le_add_right ?_ _
  cases keep with
  | true => exact Nat.le_refl _
  | false => exact List.Sublist.count_le _ List.erase_sublist

/-- A copy that leaves the network for good. -/
theorem copies_take_self (hmem : .request g ∈ t.inFlight) :
    (t.take (.request g) false).copies g + 1 = t.copies g := by
  have hpos : 0 < t.inFlight.count (.request g) := List.count_pos_iff.mpr hmem
  show (t.inFlight.erase (.request g)).count (.request g) + t.delivered.count g + 1 = _
  rw [List.count_erase_self]
  unfold System.copies
  omega

/-- What is put in flight is no copy. -/
theorem count_append_of_not_mem {inFlight sent : List Datagram} (h : .request g ∉ sent) :
    (inFlight ++ sent).count (.request g) = inFlight.count (.request g) := by
  rw [List.count_append, List.count_eq_zero.mpr h, Nat.add_zero]

/-- What the server sends is no copy of a request. -/
theorem copies_serverTurn (server : Server) : (t.serverTurn server).copies g = t.copies g := by
  refine congrArg (· + _) (count_append_of_not_mem fun hmem => ?_)
  obtain ⟨x, -, hx⟩ := List.mem_map.mp hmem
  cases hx

/-- What a client sends otherwise is no copy of the request. -/
theorem copies_clientTurn {client : Address} {turn : ClientTurn}
    (hsent : ∀ m ∈ turn.sent, (⟨m, client⟩ : Request) ≠ g) :
    (t.clientTurn client turn).copies g = t.copies g := by
  refine congrArg (· + _) (count_append_of_not_mem fun hmem => ?_)
  obtain ⟨m, hm, hmg⟩ := List.mem_map.mp hmem
  cases hmg
  exact hsent m hm rfl

/-- Of every update request there is one copy at most. -/
def Unrepeated (t : System) : Prop :=
  ∀ g : Request, g.message.updateRequest ≠ none → t.copies g ≤ 1

/-- The network repeats no update request. -/
def RepeatsNoUpdate : SystemOp → Prop
  | .deliver (.request g) _ keep _ => g.message.updateRequest ≠ none → keep = false
  | _ => True

/-- A call into a client sends one request at most. -/
theorem Call.turn_sent_length (c : Call) (sendFails : Bool) (client : Client) :
    (c.turn sendFails client).sent.length ≤ 1 := by
  have hsend (message : CacheMessage) : (clientSend sendFails message).2.length ≤ 1 := by
    unfold clientSend
    split
    · exact Nat.zero_le 1
    · split
      · exact Nat.zero_le 1
      · exact Nat.le_refl 1
  unfold Call.turn
  cases c.kind with
  | read => exact hsend _
  | update cacheData => exact hsend _

/-- **A copy more is one less in flight**, or that of a new call. -/
theorem Unrepeated.step (h : Unrepeated t) (htraffic : Traffic t) {op : SystemOp}
    (hop : RepeatsNoUpdate op) (hstep : t.Step env fails op t') : Unrepeated t' := by
  intro g hask
  have hbound := h g hask
  cases hstep with
  | @call c sendFails hnew =>
      obtain ⟨hsent, -⟩ := c.turn_spec sendFails (t.clients c.client)
      by_cases hg : c.request = g
      · -- no datagram has the op id of the new call
        have hother : ∀ c' ∈ t.calls, c'.request ≠ g := fun c' hc' heq =>
          hnew c' hc' (by rw [← c'.request_opId, ← c.request_opId, heq, hg])
        have hack : ¬ g.IsAck := fun hack => hask hack.2
        have hflight : t.inFlight.count (.request g) = 0 := List.count_eq_zero.mpr fun hmem => by
          obtain ⟨c', hc', rfl⟩ := (htraffic.inFlight g hmem).resolve_right hack
          exact hother c' hc' rfl
        have hdelivered : t.delivered.count g = 0 := List.count_eq_zero.mpr fun hmem => by
          obtain ⟨c', hc', rfl⟩ := (htraffic.delivered g hmem).resolve_right hack
          exact hother c' hc' rfl
        show (t.inFlight ++ _).count (.request g) + t.delivered.count g ≤ 1
        rw [List.count_append, hflight, hdelivered, Nat.zero_add]
        refine (List.count_le_length).trans ?_
        rw [List.length_map]
        exact c.turn_sent_length sendFails (t.clients c.client)
      · refine (copies_clientTurn (t := t) fun m hm heq => hg ?_).trans_le hbound
        rw [← heq, hsent m hm]
        rfl
  | @request g' parses keep sendFails server hmem hserver =>
      have hturn : ((t.take (.request g') keep).serverTurn server).inFlight.count (.request g) +
          t.delivered.count g = (t.take (.request g') keep).copies g := by
        rw [← take_delivered (.request g') keep t]
        exact copies_serverTurn server
      show ((t.take (.request g') keep).serverTurn server).inFlight.count (.request g) +
        (t.delivered ++ [g']).count g ≤ 1
      rw [List.count_append, ← Nat.add_assoc, hturn]
      by_cases hg : g' = g
      · obtain rfl := hg
        obtain rfl : keep = false := hop hask
        rw [List.count_singleton_self, copies_take_self hmem]
        exact hbound
      · rw [List.count_singleton, if_neg (by simpa using hg)]
        exact (copies_take_le _ _).trans hbound
  | @response dest message parses keep sendFails hmem =>
      obtain ⟨-, hsent⟩ := (t.clients dest).onReceive_spec sendFails
        (if parses then some message else none)
      refine (copies_clientTurn fun m hm heq => hask ?_).trans_le ((copies_take_le _ _).trans hbound)
      obtain ⟨opId, header, rfl⟩ := hsent m hm
      rw [← heq]
      rfl
  | @drop d hmem => exact (copies_take_le d false).trans hbound
  | tick hserver => exact (copies_serverTurn _).trans_le hbound

/-! ## The run in messages -/

section represents

variable {b b' : ByteSystem} {bytesPast : List ByteSystem}

/-- The calls are told the same. -/
theorem Represents.told (h : Represents b t) : b.ends.Told = t.Told := by
  funext c reply
  simp only [System.Told, ByteSystem.ends, h.calls, h.handled]

/-- What one call precedes is read off the calls and the handles. -/
theorem represents_precedes (h : List.Forall₂ Represents bytesPast past) :
    Precedes (bytesPast.map ByteSystem.ends) = Precedes past := by
  funext c c'
  induction h with
  | nil => rfl
  | @cons b t bytesPast past hrepresents _ ih =>
      have hcalls : b.ends.calls = t.calls := hrepresents.calls
      simp only [Precedes, List.map_cons, List.exists_mem_cons_iff, hrepresents.told, hcalls] at ih ⊢
      rw [ih]

/-- Runs that represent each other have the same history. -/
theorem Represents.history (h : Represents b t) (hpast : List.Forall₂ Represents bytesPast past) :
    byteHistory bytesPast b = systemHistory past t := by
  have hcalls : b.ends.calls = t.calls := h.calls
  unfold byteHistory systemHistory
  rw [hcalls, h.told, represents_precedes hpast]

/-- What the server's parser gets of a message. -/
theorem parsed_serialize (hparse : ProtobufWire parse) {m : CacheMessage} (hm : Outgoing m)
    (buffer : SocketBuffer) {parses : Bool} (hparses : parses = true ↔ Arrives m) :
    buffer.parsed parse (serialize m) = if parses then some m else none := by
  obtain ⟨string, hstring, hread⟩ := receive_eq hparse hm buffer hparses
  simp only [SocketBuffer.parsed, hstring, hread]

/-- What is asked of a step in bytes is asked of the step in messages. -/
theorem Represents.serial (hparse : ProtobufWire parse) (h : Represents b t)
    (hcarried : Carried t) (hcopies : Unrepeated t) {op : SystemOp} (hop : ByTransport t op)
    (hok : ByteSerial parse env fails b op.bytes) (hstep : t.Step env fails op t') :
    SystemOnce env fails t op ∧ RepeatsNoUpdate op := by
  cases hstep with
  | call hnew => exact ⟨trivial, trivial⟩
  | @request g parses keep sendFails server hmem hserver =>
      obtain ⟨hpunctual, hkeep⟩ := hok
      have hm : Outgoing g.message := hcarried.inFlight _ hmem
      rw [h.server, parsed_serialize hparse hm _ hop] at hpunctual
      refine ⟨⟨hpunctual, fun hask hdelivered => ?_⟩, hkeep g.message rfl⟩
      have hflight : 0 < t.inFlight.count (.request g) := List.count_pos_iff.mpr hmem
      have hserver : 0 < t.delivered.count g := List.count_pos_iff.mpr hdelivered
      have hcopies : t.inFlight.count (.request g) + t.delivered.count g ≤ 1 := hcopies g hask
      omega
  | response hmem => exact ⟨hok, trivial⟩
  | drop hmem => exact ⟨trivial, trivial⟩
  | tick hserver =>
      rw [SystemOp.bytes, ByteSerial, h.server] at hok
      exact ⟨hok, trivial⟩

/-- The step in messages, of a step in bytes. -/
theorem Represents.exists_message (hparse : ProtobufWire parse) (h : Represents b t)
    (hcarried : Carried t) {op : SystemOp} (hop : ByTransport t op)
    (hstep : b.step parse env fails op.bytes = some b') :
    ∃ t', t.step env fails op = some t' ∧ Represents b' t' := by
  have hrel : Option.Rel Represents (b.step parse env fails op.bytes) (t.step env fails op) :=
    h.step hparse hcarried hop
  rw [hstep] at hrel
  generalize t.step env fails op = next at hrel ⊢
  cases hrel with
  | some hrepresents => exact ⟨_, rfl, hrepresents⟩

/-- The step in bytes, of a step in messages. -/
theorem Represents.exists_byte (hparse : ProtobufWire parse) (h : Represents b t)
    (hcarried : Carried t) (op : SystemOp) (hop : ByTransport t op)
    (hstep : t.step env fails op = some t') :
    ∃ b', b.step parse env fails op.bytes = some b' ∧ Represents b' t' := by
  have hrel : Option.Rel Represents (b.step parse env fails op.bytes) (t.step env fails op) :=
    h.step hparse hcarried hop
  rw [hstep] at hrel
  generalize b.step parse env fails op.bytes = next at hrel ⊢
  cases hrel with
  | some hrepresents => exact ⟨_, rfl, hrepresents⟩

/-- **A run in bytes is a run in messages**, state by state. -/
theorem ByteRuns.messages (hparse : ProtobufWire parse)
    (h : ByteRuns parse env fails (ByteSerial parse env fails) bytesPast b) :
    ∃ past t, List.Forall₂ Represents bytesPast past ∧ Represents b t ∧ Unrepeated t ∧
      SystemRuns env fails (SystemOnce env fails) past t := by
  induction h with
  | initial => exact ⟨[], {}, .nil, ⟨rfl, rfl, rfl, rfl, rfl⟩, fun _ _ => Nat.zero_le 1, .initial⟩
  | @step bytesPast b b' op _ hok hstep ih =>
      obtain ⟨past, t, hpast, hrepresents, hcopies, hruns⟩ := ih
      obtain ⟨sop, rfl, hop⟩ := exists_bytes hrepresents hstep
      have hcarried := hruns.reachable.carried
      obtain ⟨t', hstep', hrepresents'⟩ := hrepresents.exists_message hparse hcarried hop hstep
      have hspec := System.step_spec hstep'
      obtain ⟨honce, hrepeats⟩ := hrepresents.serial hparse hcarried hcopies hop hok hspec
      exact ⟨past ++ [t], t', List.rel_append hpast (.cons hrepresents .nil), hrepresents',
        hcopies.step hruns.reachable.traffic hrepeats hspec, .step sop hruns honce hstep'⟩

end represents

/-- **From bytes to registers**: the calls of clients that number them with their generators are
linearizable, if their machine fields are different and none makes more than 4096 calls. -/
theorem bytes_linearizable (hparse : ProtobufWire parse) {generators : Address → GeneratorName}
    {readings : Address → List Int} :
    ∀ bytesPast b, ByteRuns parse env fails (ByteSerial parse env fails) bytesPast b →
      Generated generators readings b.calls → OwnFields generators b.calls →
        (∀ client, (readings client).length ≤ 4096) →
          Linearizable registers (byteHistory bytesPast b) := by
  intro bytesPast b h hgenerated hfields hfew
  obtain ⟨past, t, hpast, hrepresents, -, hruns⟩ := h.messages hparse
  rw [hrepresents.calls] at hgenerated hfields
  have hdistinct := (lowDistinct_iff hgenerated).mpr (spread_of_few hgenerated hfields hfew)
  rw [hrepresents.history hpast]
  exact (hruns.serial hdistinct).linearizable

/-- Two clients, and the bytes of an update that reach the server, as a case of
`bytes_linearizable`. -/
theorem bytes_linearizable_two : ∃ (bytesPast : List ByteSystem) (b : ByteSystem),
    b.calls = [firstCall, secondCall] ∧ b.server.mem.trace.length = 1 ∧
      Linearizable registers (byteHistory bytesPast b) := by
  have harrives : Arrives firstCall.request.message :=
    ⟨(clean_updateRequestMessage _ _ _ (by decide) _).mpr (by decide), by decide⟩
  have hparse := parseWire_protobufWire
  -- each step in messages has its step in bytes
  have h₀ : SystemReachable stillClock (fun _ => false) AnyStep {} := .initial
  have h₁ := h₀.step (.call firstCall false) trivial rfl
  have h₂ := h₁.step (.call secondCall false) trivial rfl
  have r₀ : Represents {} {} := ⟨rfl, rfl, rfl, rfl, rfl⟩
  obtain ⟨b₁, hb₁, r₁⟩ : ∃ b₁, ({} : ByteSystem).step parseWire stillClock (fun _ => false)
      (.call firstCall false) = some b₁ ∧ Represents b₁ _ :=
    r₀.exists_byte hparse h₀.carried (.call firstCall false) trivial rfl
  obtain ⟨b₂, hb₂, r₂⟩ : ∃ b₂, b₁.step parseWire stillClock (fun _ => false)
      (.call secondCall false) = some b₂ ∧ Represents b₂ _ :=
    r₁.exists_byte hparse h₁.carried (.call secondCall false) trivial rfl
  obtain ⟨b₃, hb₃, r₃⟩ : ∃ b₃, b₂.step parseWire stillClock (fun _ => false)
      (.deliver (Datagram.request firstCall.request).packet false false) = some b₃ ∧
        Represents b₃ _ :=
    r₂.exists_byte hparse h₂.carried (.deliver (.request firstCall.request) true false false)
      ⟨fun _ => harrives, fun _ => rfl⟩ rfl
  -- the server reads the message off the bytes
  have houtgoing : Outgoing firstCall.request.message :=
    h₂.carried.inFlight (.request firstCall.request) List.mem_cons_self
  have hparsed : b₂.serverBuffer.parsed parseWire (serialize firstCall.request.message) =
      some firstCall.request.message :=
    parsed_serialize hparse houtgoing _ (show true = true ↔ Arrives _ from ⟨fun _ => harrives, fun _ => rfl⟩)
  have hpunctual : Punctual stillClock (fun _ => false) b₂.server (.receive firstCall.client
      (b₂.serverBuffer.parsed parseWire (serialize firstCall.request.message))) := by
    rw [hparsed, r₂.server]
    exact punctual_firstCall rfl
  have hruns : ByteRuns parseWire stillClock (fun _ => false)
      (ByteSerial parseWire stillClock fun _ => false) _ b₃ :=
    .step (.deliver (Datagram.request firstCall.request).packet false false)
      (.step (.call secondCall false) (.step (.call firstCall false) .initial trivial hb₁) trivial hb₂)
      ⟨hpunctual, fun _ _ _ => rfl⟩ hb₃
  have hgenerated : Generated twoNames twoReadings b₃.calls := by
    rw [r₃.calls]
    exact generated_two
  have hfields : OwnFields twoNames b₃.calls := by
    rw [r₃.calls]
    exact ownFields_two
  exact ⟨_, b₃, r₃.calls, by rw [r₃.server]; rfl,
    bytes_linearizable hparse _ _ hruns hgenerated hfields twoReadings_few⟩

end CacheSystem
