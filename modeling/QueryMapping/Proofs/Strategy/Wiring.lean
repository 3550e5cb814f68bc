import QueryMapping.Proofs.Hub.Lookup
import QueryMapping.Proofs.Strategy.Choice
import QueryMapping.Sample.Strategy

/-! Registries that are filled while the hub goes on changing. A strategy is built once, when it is
registered, from what the hub holds then; neither what the hub held before and lost, nor anything
that happens to it later, can be seen in what the registry yields. -/

namespace QueryMapping

variable {ι τ : Type} [TypeFamily ι] [TypeFamily τ]

namespace Hub

structure Alike (hub hub' : Hub ι) : Prop where
  get? : ∀ key, hub.entries.get? key = hub'.entries.get? key
  length : hub.length = hub'.length

/-- The ways to use a hub without changing it: one asks it for components, or how many it has, and
what is asked next depends on the answers. -/
inductive Asks [DecidableEq ι] {α : Type} : (Hub ι → α) → Prop where
  | answer (a : α) : Asks fun _ => a
  | getScoped (scope : String) (i : ι) (next : Except HubError (TypeFamily.Carrier i) → Hub ι → α)
    (h : ∀ found, Asks (next found)) : Asks fun hub => next (hub.getScoped scope i) hub
  | getNamed (name : String) (i : ι) (next : Except HubError (TypeFamily.Carrier i) → Hub ι → α)
    (h : ∀ found, Asks (next found)) : Asks fun hub => next (hub.getNamed name i) hub
  | contains (i : ι) (next : Bool → Hub ι → α) (h : ∀ held, Asks (next held)) :
    Asks fun hub => next (hub.contains i) hub
  | length (next : Nat → Hub ι → α) (h : ∀ n, Asks (next n)) : Asks fun hub => next hub.length hub

theorem Alike.lookup [DecidableEq ι] {hub hub' : Hub ι} (h : hub.Alike hub') (key : ComponentKey)
    (scope : String) (i : ι) : hub.lookup key scope i = hub'.lookup key scope i := by
  rw [Hub.lookup, h.get?, Hub.lookup]

theorem Asks.eq_of_alike [DecidableEq ι] {α : Type} {f : Hub ι → α} (hf : Asks f) {hub hub' : Hub ι}
    (h : hub.Alike hub') : f hub = f hub' := by
  induction hf with
  | answer a => rfl
  | getScoped scope i next _ ih =>
    have heq : hub.getScoped scope i = hub'.getScoped scope i := h.lookup ..
    exact (congrArg (next · hub) heq).trans (ih _)
  | getNamed name i next _ ih =>
    have heq : hub.getNamed name i = hub'.getNamed name i := h.lookup ..
    exact (congrArg (next · hub) heq).trans (ih _)
  | contains i next _ ih =>
    have heq : hub.contains i = hub'.contains i := congrArg Option.isSome (h.get? _)
    exact (congrArg (next · hub) heq).trans (ih _)
  | length next _ ih => exact (congrArg (next · hub) h.length).trans (ih _)

theorem alike_of_last {calls calls' : List (HubCall ι)}
    (h : ∀ key c, HubCall.Last calls (·.key = key) c ↔ HubCall.Last calls' (·.key = key) c) :
    ((empty : Hub ι).afterCalls calls).Alike ((empty : Hub ι).afterCalls calls') where
  get? := fun key => Option.ext fun c => by
    rw [get?_afterCalls, get?_afterCalls]
    exact h key c
  length := by
    have hperm := (List.perm_ext_iff_of_nodup (nodup_keys_afterCalls calls)
      (nodup_keys_afterCalls calls')).2 fun key => by simp only [mem_keys_afterCalls, h]
    calc ((empty : Hub ι).afterCalls calls).length
        = ((empty : Hub ι).afterCalls calls).entries.keys.length := (List.length_map _).symm
      _ = ((empty : Hub ι).afterCalls calls').entries.keys.length := hperm.length_eq
      _ = ((empty : Hub ι).afterCalls calls').length := List.length_map _

end Hub

inductive RegistrationRequest (ι τ : Type) [TypeFamily ι] [TypeFamily τ] where
  | given (key : StrategyKey) (s : Strategy τ)
  | typed (b : Blueprint ι τ)
  | bean (name : String) (b : Blueprint ι τ)

namespace RegistrationRequest

def on (hub : Hub ι) : RegistrationRequest ι τ → RegistrationCall ι τ
  | .given key s => .given key s
  | .typed b => .typed hub b
  | .bean name b => .bean hub name b

def blueprint? : RegistrationRequest ι τ → Option (Blueprint ι τ)
  | .given .. => none
  | .typed b | .bean _ b => some b

def key : RegistrationRequest ι τ → StrategyKey
  | .given key _ => key
  | .typed b => .ofType b.typeName
  | .bean name _ => .named name

theorem key_on (hub : Hub ι) (request : RegistrationRequest ι τ) :
    (request.on hub).key = request.key := by
  cases request <;> rfl

theorem strategy_on (hub : Hub ι) {request : RegistrationRequest ι τ} {b : Blueprint ι τ}
    (h : request.blueprint? = some b) : (request.on hub).strategy = b.build hub := by
  cases request with
  | given key s => cases h
  | typed b' | bean name b' =>
    cases h
    rfl

/-- A registration made after calls on a hub, and the same one made after other calls: if it builds
its strategy, the hub holds the same components both times. -/
inductive Agrees :
    List (HubCall ι) × RegistrationRequest ι τ → List (HubCall ι) × RegistrationRequest ι τ →
    Prop where
  | given (past past' : List (HubCall ι)) (key : StrategyKey) (s : Strategy τ) :
    Agrees (past, .given key s) (past', .given key s)
  | built {past past' : List (HubCall ι)} (request : RegistrationRequest ι τ)
    (h : ∀ key c, HubCall.Last past (·.key = key) c ↔ HubCall.Last past' (·.key = key) c) :
    Agrees (past, request) (past', request)

end RegistrationRequest

inductive WiringStep (ι τ : Type) [TypeFamily ι] [TypeFamily τ] where
  | hub (call : HubCall ι)
  | register (request : RegistrationRequest ι τ)

structure Wiring (ι τ : Type) [TypeFamily ι] [TypeFamily τ] where
  hub : Hub ι
  registry : Registry τ
  results : List (Except MaterializeError Unit)

namespace Wiring

open RegistrationRequest

def empty : Wiring ι τ := ⟨.empty, .empty, []⟩

def after (w : Wiring ι τ) : WiringStep ι τ → Wiring ι τ
  | .hub call => { w with hub := w.hub.afterCall call }
  | .register request =>
    { w with
      registry := w.registry.afterCall (request.on w.hub)
      results := w.results ++ [(w.registry.outcome (request.on w.hub)).result] }

def run (steps : List (WiringStep ι τ)) : Wiring ι τ := steps.foldl after empty

def pointsAfter (past : List (HubCall ι)) :
    List (WiringStep ι τ) → List (List (HubCall ι) × RegistrationRequest ι τ)
  | [] => []
  | .hub call :: steps => pointsAfter (past ++ [call]) steps
  | .register request :: steps => (past, request) :: pointsAfter past steps

def points (steps : List (WiringStep ι τ)) : List (List (HubCall ι) × RegistrationRequest ι τ) :=
  pointsAfter [] steps

def callAt (point : List (HubCall ι) × RegistrationRequest ι τ) : RegistrationCall ι τ :=
  point.2.on ((Hub.empty : Hub ι).afterCalls point.1)

theorem foldl_after (past : List (HubCall ι)) (r : Registry τ)
    (results : List (Except MaterializeError Unit)) (steps : List (WiringStep ι τ)) :
    (steps.foldl after ⟨(Hub.empty : Hub ι).afterCalls past, r, results⟩).registry =
        r.afterCalls ((pointsAfter past steps).map callAt) ∧
      (steps.foldl after ⟨(Hub.empty : Hub ι).afterCalls past, r, results⟩).results =
        results ++ (r.outcomes ((pointsAfter past steps).map callAt)).map (·.result) := by
  -- The calls on the hub are carried along, as each registration is made on what they have left by
  -- then.
  induction steps generalizing past r results with
  | nil => exact ⟨rfl, (List.append_nil _).symm⟩
  | cons step steps ih =>
    cases step with
    | hub call =>
      have hpast : ((Hub.empty : Hub ι).afterCalls past).afterCall call =
          (Hub.empty : Hub ι).afterCalls (past ++ [call]) :=
            (Hub.empty.afterCalls_append past [call]).symm
      rw [List.foldl_cons, after, hpast]
      exact ih (past ++ [call]) r results
    | register request =>
      obtain ⟨hregistry, hresults⟩ := ih past
        (r.afterCall (request.on ((Hub.empty : Hub ι).afterCalls past)))
        (results ++ [(r.outcome (request.on ((Hub.empty : Hub ι).afterCalls past))).result])
      refine ⟨hregistry, hresults.trans ?_⟩
      rw [List.append_assoc]
      rfl

end Wiring

namespace Registry

theorem afterCall_congr (r : Registry τ) {c c' : RegistrationCall ι τ} (hkey : c.key = c'.key)
    (hstrategy : c.strategy = c'.strategy) :
    r.afterCall c = r.afterCall c' ∧ (r.outcome c).result = (r.outcome c').result := by
  have hperform : r.perform c = r.perform c' := by rw [perform_eq, perform_eq, hkey, hstrategy]
  constructor
  · rw [afterCall, hperform, afterCall]
  · rw [outcome, hperform, outcome]

theorem afterCalls_congr {calls calls' : List (RegistrationCall ι τ)}
    (h : List.Forall₂ (fun c c' => c.key = c'.key ∧ c.strategy = c'.strategy) calls calls')
    (r : Registry τ) :
    r.afterCalls calls = r.afterCalls calls' ∧
      (r.outcomes calls).map (·.result) = (r.outcomes calls').map (·.result) := by
  induction h generalizing r with
  | nil => exact ⟨rfl, rfl⟩
  | @cons c c' calls calls' hc _ ih =>
    obtain ⟨hafter, hresult⟩ := r.afterCall_congr hc.1 hc.2
    obtain ⟨hregistry, hresults⟩ := ih (r.afterCall c)
    refine ⟨?_, ?_⟩
    · change (r.afterCall c).afterCalls calls = (r.afterCall c').afterCalls calls'
      rw [hregistry, hafter]
    · rw [outcomes, outcomes, List.map_cons, List.map_cons, hresult, hresults, hafter]

theorem perform_eq_ok_iff {r r' : Registry τ} {c : RegistrationCall ι τ} : r.perform c = .ok r' ↔
    ∃ s, c.strategy = .ok s ∧ c.key ∉ r.entries.keys ∧ r' = ⟨r.entries ++ [(c.key, s)]⟩ := by
  obtain ⟨e, hstrategy, hperform⟩ | ⟨s, hstrategy, hkey, hperform⟩ |
      ⟨s, hstrategy, hkey, hperform⟩ := r.perform_cases c
  · simp [hperform, hstrategy]
  · simp [hperform, hkey]
  · simp [hperform, hstrategy, hkey, eq_comm]

theorem get?_perform {r r' : Registry τ} {c : RegistrationCall ι τ} {s : Strategy τ}
    (hstrategy : c.strategy = .ok s) (h : r.perform c = .ok r') :
    r'.entries.get? c.key = some s := by
  obtain ⟨s', hstrategy', hkey, rfl⟩ := perform_eq_ok_iff.1 h
  cases hstrategy.symm.trans hstrategy'
  rw [Table.get?_append, Table.get?_eq_none_iff.2 hkey, Option.none_or, Table.get?, if_pos rfl]

theorem get?_afterCalls_of_some {r : Registry τ} {key : StrategyKey} {s : Strategy τ}
    (h : r.entries.get? key = some s) (calls : List (RegistrationCall ι τ)) :
    (r.afterCalls calls).entries.get? key = some s := by
  rw [entries_afterCalls, Table.get?_append, h]
  rfl

end Registry

namespace RegistrationRequest

variable [DecidableEq ι]

theorem Agrees.callAt_eq {p p' : List (HubCall ι) × RegistrationRequest ι τ} (h : Agrees p p')
    (hasks : ∀ b, p.2.blueprint? = some b → Hub.Asks b.build) :
    (Wiring.callAt p).key = (Wiring.callAt p').key ∧
      (Wiring.callAt p).strategy = (Wiring.callAt p').strategy := by
  cases h with
  | given past past' key s => exact ⟨rfl, rfl⟩
  | @built past past' request h =>
    refine ⟨(key_on _ request).trans (key_on _ request).symm, ?_⟩
    cases request with
    | given key s => rfl
    | typed b | bean name b => exact (hasks b rfl).eq_of_alike (Hub.alike_of_last h)

end RegistrationRequest

namespace Wiring

open RegistrationRequest

theorem run_registry (steps : List (WiringStep ι τ)) :
    (run steps).registry = (Registry.empty : Registry τ).afterCalls ((points steps).map callAt) :=
  (foldl_after [] .empty [] steps).1

theorem run_results (steps : List (WiringStep ι τ)) : (run steps).results =
    ((Registry.empty : Registry τ).outcomes ((points steps).map callAt)).map (·.result) :=
  (foldl_after [] .empty [] steps).2

theorem get?_foldl_after {w : Wiring ι τ} {key : StrategyKey} {s : Strategy τ}
    (h : w.registry.entries.get? key = some s) (steps : List (WiringStep ι τ)) :
    (steps.foldl after w).registry.entries.get? key = some s := by
  induction steps generalizing w with
  | nil => exact h
  | cons step steps ih =>
    refine ih ?_
    cases step with
    | hub call => exact h
    | register request => exact Registry.get?_afterCalls_of_some h [request.on w.hub]

/-- However the hub and the registry are worked on by turns: a strategy is registered just if the
hub has what it is built from and its key is free; it stays what its blueprint made of the hub at
that time; and steps whose registrations find the same components last registered lead to the same
registry. Only the last part takes blueprints that merely ask the hub. -/
theorem built_when_registered [DecidableEq ι] [DecidableEq τ] (steps : List (WiringStep ι τ)) :
    (∀ before request later b, steps = before ++ .register request :: later →
      request.blueprint? = some b →
      let w := run before
      ((∃ r, w.registry.perform (request.on w.hub) = .ok r) ↔
        (∃ s, b.build w.hub = .ok s) ∧ w.registry.contains request.key = false) ∧
      ∀ s r, b.build w.hub = .ok s → w.registry.perform (request.on w.hub) = .ok r →
        (∀ t m, (run steps).registry.resolve request.key t = .ok m ↔ s = ⟨t, m⟩) ∧
        ∀ cursor, materializeFound ((run steps).registry.resolve request.key s.output) cursor =
          s.materializer.materialize cursor) ∧
    ∀ steps', (∀ p ∈ points steps, ∀ b, p.2.blueprint? = some b → Hub.Asks b.build) →
      List.Forall₂ Agrees (points steps) (points steps') →
        (run steps).registry = (run steps').registry ∧
        (run steps).results = (run steps').results := by
  refine ⟨?_, fun steps' hasks hagrees => ?_⟩
  · rintro before request later b rfl hb w
    have hstrategy : (request.on w.hub).strategy = b.build w.hub := strategy_on _ hb
    have hkey : (request.on w.hub).key = request.key := key_on _ _
    refine ⟨?_, fun s r hs hperform => ?_⟩
    · simp only [Registry.perform_eq_ok_iff, hstrategy, hkey, Registry.contains,
        ← Table.contains_iff_mem_keys, Bool.not_eq_true, exists_comm, exists_and_left, exists_eq,
        and_true, exists_and_right]
    · have hrun : run (before ++ .register request :: later) =
          later.foldl after (w.after (.register request)) :=
        List.foldl_append
      have hafter : (w.after (.register request)).registry = r := by
        rw [after, Registry.afterCall, hperform]
        rfl
      have hkept : (run (before ++ .register request :: later)).registry.entries.get? request.key =
          some s := by
        rw [hrun]
        refine get?_foldl_after ?_ later
        rw [hafter, ← hkey]
        exact Registry.get?_perform (hstrategy.trans hs) hperform
      refine ⟨fun t m => ?_, fun cursor => ?_⟩
      · rw [Registry.resolve_eq_ok_iff, hkept, Option.some_inj]
      · rw [Registry.resolve_eq_ok_iff.2 hkept]
        rfl
  · have hcalls :
      List.Forall₂ (fun c c' : RegistrationCall ι τ => c.key = c'.key ∧ c.strategy = c'.strategy)
        ((points steps).map callAt) ((points steps').map callAt) := by
      rw [List.forall₂_map_left_iff, List.forall₂_map_right_iff]
      exact ((List.forall₂_and_left _ _).2 ⟨hasks, hagrees⟩).imp fun p p' h => h.2.callAt_eq h.1
    rw [run_registry, run_registry, run_results, run_results]
    exact Registry.afterCalls_congr hcalls .empty

open Sample in
theorem built_when_registered_shout :
    let before : List (WiringStep Interface Entity) :=
      [.hub (.register (Interface.suffix.component "?")),
        .hub (.register (Interface.greeter.component "g")),
        .hub (.register (Interface.suffix.component "!"))]
    let request : RegistrationRequest Interface Entity := .typed shoutBlueprint
    let steps := before ++ .register request ::
      [.hub .clear, .hub (.register (Interface.suffix.component "#"))]
    let steps' : List (WiringStep Interface Entity) :=
      [.hub (.register (Interface.greeter.component "g")),
        .hub (.register (Interface.suffix.component "!")), .register request]
    (∃ r, (run before).registry.perform (request.on (run before).hub) = .ok r) ∧
      (run steps).registry.resolve request.key text = .ok (.extract (shout ⟨"!"⟩)) ∧
      (run steps).registry = (run steps').registry := by
  intro before request steps steps'
  obtain ⟨hbuilt, hsame⟩ := built_when_registered steps
  obtain ⟨hregistered, hkept⟩ := hbuilt before request _ shoutBlueprint rfl rfl
  obtain ⟨r, hr⟩ := hregistered.2 ⟨⟨_, rfl⟩, rfl⟩
  obtain ⟨hresolve, -⟩ := hkept _ r rfl hr
  refine ⟨⟨r, hr⟩, (hresolve _ _).2 rfl, (hsame steps' ?_ ?_).1⟩
  · intro p hp b hb
    obtain rfl := List.mem_singleton.1 hp
    cases hb
    exact .getScoped Hub.globalScope Interface.suffix
      (fun found _ => found.map fun s => extracting text (shout s))
      fun _ => .answer _
  · refine .cons (.built request fun key c => ?_) .nil
    rw [← Hub.get?_afterCalls, ← Hub.get?_afterCalls]
    -- The two tables hold the same entries, in different orders.
    change Table.get? key
      [((ComponentKey.interface "dyn Suffix", "global"), Interface.suffix.component "!"),
        ((.interface "dyn Greeter", "global"), Interface.greeter.component "g")] = some c ↔
      Table.get? key
        [((ComponentKey.interface "dyn Greeter", "global"), Interface.greeter.component "g"),
          ((.interface "dyn Suffix", "global"), Interface.suffix.component "!")] = some c
    simp only [Table.get?]
    grind

end Wiring

end QueryMapping
