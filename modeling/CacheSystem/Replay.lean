import CacheSystem.CenterTurns
import CacheSystem.Updates
import CacheSystem.Deferred
import Mathlib.Data.List.Induction

/-!
# The elements are what the history says (`cache_data_center.h`)

The values of the data center are those of its history, replayed: each assignment replaces the value
of its id, and nothing else changes one. So a read hands out the value that was assigned last, the
handler of a deferred update runs when its element has that update's value, and an id has no data
exactly as long as nothing was assigned to it. None of this depends on the clock or the timers: it
holds in every run, also where leases are broken.

* `replay` : the values after a history. `Event.shows` : what an event says a value is.
* `Replays` : the elements are the replay of the history, and every event in it showed the value that
  there was.
* `replays_of_reachable`, `server_replays` : the runs of a data center, and those of the server.
* `readOp_last` : what a read returns.
-/

namespace CacheSystem

variable {T H F τ : Type}

/-! ## Histories -/

/-- The values after an event; a value that was moved out is `unspecified`. -/
def Event.assign (unspecified : T) (values : UInt64 → Option T) :
    Event T H → UInt64 → Option T
  | .updated cacheId _ _ value _ => Function.update values cacheId (some value)
  | .moved cacheId _ value => Function.update values cacheId (some (value.getD unspecified))
  | _ => values

/-- The values after a history. -/
def replay (unspecified : T) (trace : List (Event T H)) : UInt64 → Option T :=
  trace.foldl (fun values event => event.assign unspecified values) fun _ => none

/-- What the event says a value is. -/
def Event.shows : Event T H → Option (UInt64 × T)
  | .read cacheId _ value => some (cacheId, value)
  | .completed cacheId _ _ _ value _ => some (cacheId, value)
  | _ => none

/-- The event assigns to the value of this id. -/
def Event.Writes (cacheId : UInt64) : Event T H → Prop
  | .updated id _ _ _ _ => id = cacheId
  | .moved id _ _ => id = cacheId
  | _ => False

/-- Without a history there is no data. -/
@[simp] theorem replay_nil (unspecified : T) :
    replay unspecified ([] : List (Event T H)) = fun _ => none := rfl

/-- The last event is applied last. -/
@[simp] theorem replay_concat (unspecified : T) (trace : List (Event T H)) (event : Event T H) :
    replay unspecified (trace ++ [event]) = event.assign unspecified (replay unspecified trace) := by
  simp [replay]

/-- An event that writes nothing to an id leaves its value. -/
theorem Event.assign_of_not_writes {event : Event T H} {cacheId : UInt64}
    (h : ¬ event.Writes cacheId) (unspecified : T) (values : UInt64 → Option T) :
    event.assign unspecified values cacheId = values cacheId := by
  cases event with
  | updated id _ _ _ _ => exact Function.update_of_ne (fun heq => h heq.symm) _ _
  | moved id _ _ => exact Function.update_of_ne (fun heq => h heq.symm) _ _
  | read _ _ _ => rfl
  | deferred _ _ _ _ => rfl
  | retried _ _ _ => rfl
  | completed _ _ _ _ _ _ => rfl

/-- An event that writes to an id leaves a value. -/
theorem Event.assign_of_writes {event : Event T H} {cacheId : UInt64} (h : event.Writes cacheId)
    (unspecified : T) (values : UInt64 → Option T) :
    event.assign unspecified values cacheId ≠ none := by
  cases event with
  | updated id _ _ value _ =>
      cases h
      simp [Event.assign]
  | moved id _ value =>
      cases h
      simp [Event.assign]
  | read _ _ _ => exact h.elim
  | deferred _ _ _ _ => exact h.elim
  | retried _ _ _ => exact h.elim
  | completed _ _ _ _ _ _ => exact h.elim

/-- **There is no value exactly while nothing was written.** -/
theorem replay_eq_none_iff (unspecified : T) (trace : List (Event T H)) (cacheId : UInt64) :
    replay unspecified trace cacheId = none ↔ ∀ event ∈ trace, ¬ event.Writes cacheId := by
  induction trace using List.reverseRecOn with
  | nil => simp
  | append_singleton trace event ih =>
      rw [replay_concat, List.forall_mem_append, ← ih]
      by_cases hwrites : event.Writes cacheId
      · simp [Event.assign_of_writes hwrites, hwrites]
      · simp [Event.assign_of_not_writes hwrites, hwrites]

/-- What writes nothing to an id leaves its value. -/
theorem replay_append_of_not_writes {unspecified : T} {trace events : List (Event T H)}
    {cacheId : UInt64} (h : ∀ event ∈ events, ¬ event.Writes cacheId) :
    replay unspecified (trace ++ events) cacheId = replay unspecified trace cacheId := by
  induction events using List.reverseRecOn with
  | nil => rw [List.append_nil]
  | append_singleton events event ih =>
      obtain ⟨hevents, hevent⟩ := List.forall_mem_append.mp h
      rw [← List.append_assoc, replay_concat,
        Event.assign_of_not_writes (hevent event (List.mem_singleton_self event)), ih hevents]

/-! ## Elements -/

/-- The values of the elements. -/
def valuesOf (map : UInt64 → Option (CacheElement T H)) : UInt64 → Option T :=
  fun cacheId => (map cacheId).map CacheElement.value

/-- An element brings its value. -/
theorem valuesOf_of_some {map : UInt64 → Option (CacheElement T H)} {cacheId : UInt64}
    {e : CacheElement T H} (he : map cacheId = some e) : valuesOf map cacheId = some e.value := by
  simp [valuesOf, he]

/-- The value of an element that is put in. -/
theorem valuesOf_update (map : UInt64 → Option (CacheElement T H)) (cacheId : UInt64)
    (e : CacheElement T H) : valuesOf (Function.update map cacheId (some e)) =
      Function.update (valuesOf map) cacheId (some e.value) := by
  funext id
  by_cases hid : id = cacheId
  · subst hid
    simp [valuesOf]
  · simp [valuesOf, Function.update_of_ne hid]

/-- An element whose manager changes keeps its value. -/
theorem valuesOf_update_self {map : UInt64 → Option (CacheElement T H)} {cacheId : UInt64}
    {e e' : CacheElement T H} (he : map cacheId = some e) (hvalue : e'.value = e.value) :
    valuesOf (Function.update map cacheId (some e')) = valuesOf map := by
  rw [valuesOf_update, hvalue]
  exact Function.update_eq_self_iff.mpr (valuesOf_of_some he).symm

/-- The values are those of the history, and every event in it showed the value there was. -/
structure Replays (unspecified : T) (map : UInt64 → Option (CacheElement T H))
    (trace : List (Event T H)) : Prop where
  values : valuesOf map = replay unspecified trace
  shows : ∀ pre event post cacheId value, trace = pre ++ event :: post →
    event.shows = some (cacheId, value) → replay unspecified pre cacheId = some value

variable {unspecified : T} {map map' : UInt64 → Option (CacheElement T H)}
  {trace : List (Event T H)}

/-- An empty data center replays the empty history. -/
theorem Replays.initial : Replays unspecified (fun _ => none : UInt64 → Option (CacheElement T H))
    [] where
  values := rfl
  shows pre event post cacheId value htrace := by cases pre <;> cases htrace

/-- Elements that have the values they had. -/
theorem Replays.of_values (h : Replays unspecified map trace)
    (hvalues : valuesOf map' = valuesOf map) : Replays unspecified map' trace :=
  ⟨hvalues.trans h.values, h.shows⟩

/-- **An event** that assigns what it says, and shows what is there. -/
theorem Replays.event (h : Replays unspecified map trace) {event : Event T H}
    (hvalues : valuesOf map' = event.assign unspecified (valuesOf map))
    (hshows : ∀ cacheId value, event.shows = some (cacheId, value) →
      valuesOf map cacheId = some value) : Replays unspecified map' (trace ++ [event]) where
  values := by rw [replay_concat, hvalues, h.values]
  shows pre event' post cacheId value htrace hevent := by
    rcases append_singleton_eq htrace with ⟨-, rfl, rfl⟩ | ⟨post', -, htrace⟩
    · rw [← h.values]
      exact hshows cacheId value hevent
    · exact h.shows pre event' post' cacheId value htrace hevent

/-! ## Operations -/

section operations

variable {env : Env} {p : Center T H F τ}

/-- A read assigns nothing. -/
theorem Replays.readOp {cacheId : UInt64} {opId : UInt32}
    {r : Except Thrown (OpResult × Option (Int × T)) × Center T H F τ}
    (h : Replays unspecified p.mem.map p.mem.trace) (hr : ReadOp env cacheId opId p r) :
    Replays unspecified r.2.mem.map r.2.mem.trace := by
  cases hr with
  | absent he => exact h
  | renewed he hm hs =>
      refine h.event (valuesOf_update_self he rfl) fun id value hshows => ?_
      cases hshows
      exact valuesOf_of_some he
  | unleased he hstate =>
      refine h.event rfl fun id value hshows => ?_
      cases hshows
      exact valuesOf_of_some he

/-- An update assigns what its event says. -/
theorem Replays.updateOp [Inhabited T] {cacheId : UInt64} {value : T} {opId : UInt32} {f : H}
    {r : Except Thrown (OpResult × Int) × Center T H F τ}
    (h : Replays unspecified p.mem.map p.mem.trace) (hr : UpdateOp env cacheId value opId f p r) :
    Replays unspecified r.2.mem.map r.2.mem.trace := by
  cases hr with
  | assigned he hstate hs =>
      exact h.event (valuesOf_update _ _ _) fun id value hshows => nomatch hshows
  | refused he hstate h0 => exact h
  | overdue he hstate h0 hdelay => exact h.of_values (valuesOf_update_self he rfl)
  | deferred he hstate h0 hdelay hs =>
      exact h.event (valuesOf_update_self he rfl) fun id value hshows => nomatch hshows
  | retried he hstate h0 => exact h.event rfl fun id value hshows => nomatch hshows

/-- What a callback takes out of `temp_value_` it assigns, and its handler runs after that. -/
theorem Replays.runTimer {hooks : Hooks T H F τ} {call : TimerCall F}
    {r : Option Thrown × Center T H F τ} (h : Replays hooks.unspecified p.mem.map p.mem.trace)
    (hr : RunTimer env hooks p call r) : Replays hooks.unspecified r.2.mem.map r.2.mem.trace := by
  have hmoved : ∀ cacheId (e : CacheElement T H) m,
      Replays hooks.unspecified
        (Function.update p.mem.map cacheId (some (e.taken hooks.unspecified m)))
        (p.mem.trace ++ [.moved cacheId e.call e.tempValue]) := fun cacheId e m =>
    h.event (valuesOf_update _ _ _) fun id value hshows => nomatch hshows
  cases hr with
  | absent howner he => exact h
  | idled he => exact h.of_values (valuesOf_update_self he rfl)
  | @completed cacheId e f s p' r he hs hf hp hinv =>
      subst hp
      refine (hmoved cacheId e _).event rfl fun id value hshows => ?_
      cases hshows
      rw [valuesOf_update]
      exact Function.update_self _ _ _
  | @noCall cacheId e he hf => exact hmoved cacheId e _
  | unbound he hnone => exact h.of_values (valuesOf_update_self he rfl)
  | foreign hinv => exact h

end operations

/-! ## Runs -/

/-- **The values are those of the history, in every run of a data center**, whatever the clock, the
handlers and the other owners of timers do. -/
theorem replays_of_reachable [Inhabited T] {env : Env} {hooks : Hooks T H F τ}
    {ok : Center T H F τ → Op T H → Prop} {p : Center T H F τ} (h : Reachable env hooks ok p) :
    Replays hooks.unspecified p.mem.map p.mem.trace := by
  induction h with
  | initial outer => exact .initial
  | step op _ _ hstep ih =>
      cases op with
      | read cacheId opId =>
          cases hstep
          exact ih.readOp (readOp_spec env cacheId opId _)
      | update cacheId value opId f =>
          cases hstep
          exact ih.updateOp (updateOp_spec env cacheId value opId f _)
      | tick fuel =>
          obtain ⟨r, ht, rfl⟩ := Option.map_eq_some_iff.mp hstep
          exact tickLoop_mem (P := fun mem => Replays hooks.unspecified mem.map mem.trace)
            (fun _ _ _ hq hr => hq.runTimer hr) ht ih

/-- **The values of the server's data center are those of its history**, in every run of the
server. -/
theorem server_replays {env : Env} {fails : Nat → Bool} {ok : Server → ServerOp → Server → Prop}
    {s : Server} (h : ServerReachable env fails ok s) :
    Replays ([] : CacheData) s.mem.map s.mem.trace := by
  induction h with
  | initial => exact .initial
  | @step s s' op hs hstep _ ih =>
      refine Server.step_mem
        (P := fun mem => Replays ([] : CacheData) mem.map mem.trace)
        (Q := fun mem => Replays ([] : CacheData) mem.map mem.trace) (fun _ _ h => h) hstep
        (fun sender data r _ hr h => ?_) (fun _ _ h => h)
        (fun s _ _ h hr => by
          have hmap : Replays (serverHooks env fails).unspecified s.mem.map s.mem.trace := h
          exact hmap.runTimer hr) ih
      cases hr.centerTurn (wired_of_reachable hs) with
      | aside hsame =>
          rw [hsame.map, hsame.trace]
          exact h
      | cancelled ht howner hrt hmap htrace =>
          rw [hmap, htrace]
          exact h
      | read hread hsame hop hafter =>
          rw [← hsame.map, ← hsame.trace] at h
          rw [hafter.map, hafter.trace]
          exact h.readOp hop
      | update hupdate hsame hop hafter =>
          rw [← hsame.map, ← hsame.trace] at h
          rw [hafter.map, hafter.trace]
          exact h.updateOp hop

end CacheSystem
