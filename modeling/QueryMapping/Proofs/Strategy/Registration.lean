import Mathlib.Data.List.Nodup
import QueryMapping.Strategy.Registry

/-! Runs of registrations. The entries of a registry are those of the calls that succeeded, in
order, so that what a key holds can be read off from the calls and their outcomes. -/

namespace QueryMapping

variable {ι τ : Type} [TypeFamily ι] [TypeFamily τ]

/-- A call that registers a strategy. One that builds it does so from the hub as it is at that
time. -/
inductive RegistrationCall (ι τ : Type) [TypeFamily ι] [TypeFamily τ] where
  | given (key : StrategyKey) (s : Strategy τ)
  | typed (hub : Hub ι) (b : Blueprint ι τ)
  | bean (hub : Hub ι) (name : String) (b : Blueprint ι τ)

namespace RegistrationCall

def key : RegistrationCall ι τ → StrategyKey
  | .given key _ => key
  | .typed _ b => .ofType b.typeName
  | .bean _ name _ => .named name

def strategy : RegistrationCall ι τ → Except HubError (Strategy τ)
  | .given _ s => .ok s
  | .typed hub b | .bean hub _ b => b.build hub

end RegistrationCall

structure RegistrationOutcome (ι τ : Type) [TypeFamily ι] [TypeFamily τ] where
  call : RegistrationCall ι τ
  result : Except MaterializeError Unit

namespace RegistrationOutcome

def added? (o : RegistrationOutcome ι τ) : Option (StrategyKey × Strategy τ) :=
  match o.result with
  | .ok () => o.call.strategy.toOption.map (o.call.key, ·)
  | .error _ => none

def Taken (os : List (RegistrationOutcome ι τ)) (key : StrategyKey) : Prop :=
  ∃ o ∈ os, o.call.key = key ∧ o.result = .ok ()

/-- How a call ends when others have been made before it. A missing collaborator is reported even if
the key is taken. -/
inductive Follows (os : List (RegistrationOutcome ι τ)) : RegistrationOutcome ι τ → Prop where
  | unbuilt {c : RegistrationCall ι τ} {e : HubError} (h : c.strategy = .error e) :
    Follows os ⟨c, .error (.component e)⟩
  | refused {c : RegistrationCall ι τ} {s : Strategy τ} (h : c.strategy = .ok s)
    (taken : Taken os c.key) : Follows os ⟨c, .error (.duplicateKey c.key)⟩
  | added {c : RegistrationCall ι τ} {s : Strategy τ} (h : c.strategy = .ok s)
    (free : ¬ Taken os c.key) : Follows os ⟨c, .ok ()⟩

def First (os : List (RegistrationOutcome ι τ)) (key : StrategyKey) (s : Strategy τ) : Prop :=
  ∃ before c after, os = before ++ ⟨c, .ok ()⟩ :: after ∧ c.key = key ∧ c.strategy = .ok s ∧
    ¬ Taken before key

end RegistrationOutcome

namespace Registry

def perform (r : Registry τ) : RegistrationCall ι τ → Except MaterializeError (Registry τ)
  | .given key s => r.register key s
  | .typed hub b => r.registerType hub b
  | .bean hub name b => r.registerBuilt hub (.named name) b

def afterCall (r : Registry τ) (c : RegistrationCall ι τ) : Registry τ :=
  (r.perform c).toOption.getD r

def afterCalls (r : Registry τ) (calls : List (RegistrationCall ι τ)) : Registry τ :=
  calls.foldl afterCall r

def outcome (r : Registry τ) (c : RegistrationCall ι τ) : RegistrationOutcome ι τ :=
  ⟨c, (r.perform c).map fun _ => ()⟩

def outcomes (r : Registry τ) : List (RegistrationCall ι τ) → List (RegistrationOutcome ι τ)
  | [] => []
  | c :: calls => r.outcome c :: (r.afterCall c).outcomes calls

open RegistrationOutcome

theorem perform_eq (r : Registry τ) (c : RegistrationCall ι τ) :
    r.perform c = (c.strategy.mapError .component).bind (r.register c.key) := by
  cases c with
  | given key s => rfl
  | typed hub b | bean hub name b =>
    simp only [perform, registerType, registerBuilt, RegistrationCall.strategy]
    cases b.build hub <;> rfl

theorem perform_cases (r : Registry τ) (c : RegistrationCall ι τ) :
    (∃ e, c.strategy = .error e ∧ r.perform c = .error (.component e)) ∨
      (∃ s, c.strategy = .ok s ∧ c.key ∈ r.entries.keys ∧
        r.perform c = .error (.duplicateKey c.key)) ∨
      ∃ s, c.strategy = .ok s ∧ c.key ∉ r.entries.keys ∧
      r.perform c = .ok ⟨r.entries ++ [(c.key, s)]⟩ := by
  rw [perform_eq]
  cases c.strategy with
  | error e => exact .inl ⟨e, rfl, rfl⟩
  | ok s =>
    by_cases hkey : c.key ∈ r.entries.keys
    · exact .inr (.inl ⟨s, rfl, hkey, if_pos (Table.contains_iff_mem_keys.2 hkey)⟩)
    · refine .inr (.inr ⟨s, rfl, hkey, ?_⟩)
      rw [← Table.set_eq_append hkey]
      exact if_neg (mt Table.contains_iff_mem_keys.1 hkey)

theorem entries_afterCall (r : Registry τ) (c : RegistrationCall ι τ) :
    (r.afterCall c).entries = r.entries ++ (r.outcome c).added?.toList := by
  unfold afterCall outcome
  obtain ⟨e, -, h⟩ | ⟨s, -, -, h⟩ | ⟨s, hstrategy, -, h⟩ := r.perform_cases c
  · simp [h, added?, Except.map, Except.toOption]
  · simp [h, added?, Except.map, Except.toOption]
  · simp [h, added?, Except.map, Except.toOption, hstrategy]

theorem entries_afterCalls (r : Registry τ) (calls : List (RegistrationCall ι τ)) :
    (r.afterCalls calls).entries = r.entries ++ (r.outcomes calls).filterMap added? := by
  induction calls generalizing r with
  | nil => simp [afterCalls, outcomes]
  | cons c calls ih =>
    change ((r.afterCall c).afterCalls calls).entries = _
    rw [ih, entries_afterCall, outcomes, List.filterMap_cons, List.append_assoc]
    cases (r.outcome c).added? <;> rfl

theorem nodup_keys_afterCall {r : Registry τ} (h : r.entries.keys.Nodup)
    (c : RegistrationCall ι τ) :
    (r.afterCall c).entries.keys.Nodup := by
  unfold afterCall
  obtain ⟨e, -, hperform⟩ | ⟨s, -, -, hperform⟩ | ⟨s, -, hkey, hperform⟩ := r.perform_cases c
  · rwa [hperform]
  · rwa [hperform]
  · rw [hperform]
    change ((r.entries ++ [(c.key, s)]).map Prod.fst).Nodup
    rw [List.map_append]
    refine List.nodup_append.2 ⟨h, List.nodup_singleton _, ?_⟩
    rintro key hmem key' hkey' rfl
    obtain rfl : key = c.key := List.mem_singleton.1 hkey'
    exact hkey hmem

theorem nodup_keys_afterCalls {r : Registry τ} (h : r.entries.keys.Nodup)
    (calls : List (RegistrationCall ι τ)) : (r.afterCalls calls).entries.keys.Nodup := by
  induction calls generalizing r with
  | nil => exact h
  | cons c calls ih => exact ih (nodup_keys_afterCall h c)

theorem map_call_outcomes (r : Registry τ) (calls : List (RegistrationCall ι τ)) :
    (r.outcomes calls).map (·.call) = calls := by
  induction calls generalizing r with
  | nil => rfl
  | cons c calls ih => rw [outcomes, List.map_cons, ih, outcome]

theorem outcomes_eq_append {r : Registry τ} {calls : List (RegistrationCall ι τ)}
    {before after : List (RegistrationOutcome ι τ)} {o : RegistrationOutcome ι τ}
    (h : r.outcomes calls = before ++ o :: after) :
    r.outcomes (before.map (·.call)) = before ∧
      (r.afterCalls (before.map (·.call))).outcome o.call = o := by
  induction before generalizing r calls with
  | nil =>
    cases calls with
    | nil => cases h
    | cons c calls =>
      obtain ⟨rfl, -⟩ := List.cons.inj h
      exact ⟨rfl, rfl⟩
  | cons o' before ih =>
    cases calls with
    | nil => cases h
    | cons c calls =>
      obtain ⟨rfl, hrest⟩ := List.cons.inj h
      obtain ⟨hbefore, ho⟩ := ih hrest
      refine ⟨?_, ho⟩
      rw [List.map_cons, outcomes]
      exact congrArg (_ :: ·) hbefore

theorem added?_of_mem {r : Registry τ} {calls : List (RegistrationCall ι τ)}
    {o : RegistrationOutcome ι τ} (ho : o ∈ r.outcomes calls) (hok : o.result = .ok ()) :
    ∃ s, o.call.strategy = .ok s ∧ o.added? = some (o.call.key, s) := by
  obtain ⟨before, after, h⟩ := List.append_of_mem ho
  have heq := congrArg RegistrationOutcome.result (outcomes_eq_append h).2
  obtain ⟨e, -, hperform⟩ | ⟨s, -, -, hperform⟩ | ⟨s, hstrategy, -, hperform⟩ :=
    (r.afterCalls (before.map (·.call))).perform_cases o.call
  · rw [outcome, hperform, hok] at heq
    cases heq
  · rw [outcome, hperform, hok] at heq
    cases heq
  · exact ⟨s, hstrategy, by simp [added?, hok, hstrategy, Except.toOption]⟩

theorem mem_keys_afterCalls {calls : List (RegistrationCall ι τ)} {key : StrategyKey} :
    key ∈ ((empty : Registry τ).afterCalls calls).entries.keys ↔
      Taken ((empty : Registry τ).outcomes calls) key := by
  rw [Table.keys, entries_afterCalls]
  simp only [empty, List.nil_append, List.mem_map, List.mem_filterMap]
  constructor
  · rintro ⟨entry, ⟨o, ho, hentry⟩, rfl⟩
    refine ⟨o, ho, ?_⟩
    unfold added? at hentry
    split at hentry
    · next hok =>
      obtain ⟨s, -, rfl⟩ := Option.map_eq_some_iff.1 hentry
      exact ⟨rfl, hok⟩
    · cases hentry
  · rintro ⟨o, ho, rfl, hok⟩
    obtain ⟨s, -, hentry⟩ := added?_of_mem ho hok
    exact ⟨_, ⟨o, ho, hentry⟩, rfl⟩

theorem follows_of_outcomes_eq {calls : List (RegistrationCall ι τ)}
    {before after : List (RegistrationOutcome ι τ)} {o : RegistrationOutcome ι τ}
    (h : (empty : Registry τ).outcomes calls = before ++ o :: after) : o.Follows before := by
  obtain ⟨hbefore, ho⟩ := outcomes_eq_append h
  have hkeys := @mem_keys_afterCalls ι τ _ _ (before.map (·.call)) o.call.key
  rw [hbefore] at hkeys
  rw [← ho]
  obtain ⟨e, hstrategy, hperform⟩ | ⟨s, hstrategy, hkey, hperform⟩ |
      ⟨s, hstrategy, hkey, hperform⟩ :=
    ((empty : Registry τ).afterCalls (before.map (·.call))).perform_cases o.call
  · rw [outcome, hperform]
    exact .unbuilt hstrategy
  · rw [outcome, hperform]
    exact .refused hstrategy (hkeys.1 hkey)
  · rw [outcome, hperform]
    exact .added hstrategy (mt hkeys.2 hkey)

theorem get?_afterCalls {calls : List (RegistrationCall ι τ)} {key : StrategyKey} {s : Strategy τ} :
    ((empty : Registry τ).afterCalls calls).entries.get? key = some s ↔
      First ((empty : Registry τ).outcomes calls) key s := by
  have hnodup := nodup_keys_afterCalls (r := (empty : Registry τ)) List.nodup_nil calls
  rw [← Table.mem_iff_get?_eq_some hnodup, entries_afterCalls]
  simp only [empty, List.nil_append, List.mem_filterMap]
  constructor
  · rintro ⟨o, ho, hentry⟩
    obtain ⟨before, after, hsplit⟩ := List.append_of_mem ho
    cases follows_of_outcomes_eq hsplit with
    | unbuilt _ => cases hentry
    | refused _ _ => cases hentry
    | @added c s' hstrategy free =>
      obtain ⟨rfl, rfl⟩ : c.key = key ∧ s' = s := by
        simpa [added?, hstrategy, Except.toOption] using hentry
      exact ⟨before, c, after, hsplit, rfl, hstrategy, free⟩
  · rintro ⟨before, c, after, hsplit, rfl, hstrategy, -⟩
    refine ⟨_, hsplit ▸ List.mem_append_right _ (List.mem_cons_self ..), ?_⟩
    simp [added?, hstrategy, Except.toOption]

theorem get?_afterCalls_eq_none {calls : List (RegistrationCall ι τ)} {key : StrategyKey} :
    ((empty : Registry τ).afterCalls calls).entries.get? key = none ↔
      ¬ Taken ((empty : Registry τ).outcomes calls) key := by
  rw [Table.get?_eq_none_iff, mem_keys_afterCalls]

theorem afterCall_of_error {r : Registry τ} {c : RegistrationCall ι τ} {e : MaterializeError}
    (h : (r.outcome c).result = .error e) : r.afterCall c = r := by
  unfold outcome at h
  cases hperform : r.perform c with
  | error _ => rw [afterCall, hperform]; rfl
  | ok _ => rw [hperform] at h; cases h

theorem afterCalls_concat (r : Registry τ) (calls : List (RegistrationCall ι τ))
    (c : RegistrationCall ι τ) : r.afterCalls (calls ++ [c]) = (r.afterCalls calls).afterCall c :=
  List.foldl_concat ..

section Resolve

variable [DecidableEq τ] {r : Registry τ} {key : StrategyKey} {t : OutputType τ}

theorem resolve_eq_ok_iff {m : Materializer t.Carrier} :
    r.resolve key t = .ok m ↔ r.entries.get? key = some ⟨t, m⟩ := by
  unfold resolve
  cases r.entries.get? key with
  | none => simp
  | some s =>
    obtain ⟨output, materializer⟩ := s
    by_cases h : output = t
    · subst h
      simp
    · simp [h]

theorem resolve_eq_error_iff {e : MaterializeError} :
    r.resolve key t = .error e ↔ (r.entries.get? key = none ∧ e = .notFound key) ∨
      ∃ s, r.entries.get? key = some s ∧ s.output ≠ t ∧
      e = .typeMismatch key s.output.name t.name := by
  unfold resolve
  cases r.entries.get? key with
  | none => simp [eq_comm]
  | some s =>
    by_cases h : s.output = t
    · simp [h]
    · simp [h, @eq_comm _ _ e]

end Resolve

theorem mem_registrations {r : Registry τ} (h : r.entries.keys.Nodup) {reg : Registration} :
    reg ∈ r.registrations ↔ ∃ s, r.entries.get? reg.key = some s ∧
      reg.shape = s.materializer.shape ∧ reg.output = s.output.name := by
  rw [registrations, List.mem_map]
  constructor
  · rintro ⟨⟨key, s⟩, hmem, rfl⟩
    exact ⟨s, (Table.mem_iff_get?_eq_some h).1 hmem, rfl, rfl⟩
  · rintro ⟨s, hget, hshape, houtput⟩
    refine ⟨(reg.key, s), (Table.mem_iff_get?_eq_some h).2 hget, ?_⟩
    rw [← hshape, ← houtput]

theorem map_key_registrations (r : Registry τ) : r.registrations.map (·.key) = r.entries.keys := by
  rw [registrations, List.map_map]
  rfl

/-- Whatever calls are made, and however each of them ends, a key holds the strategy of the first
call for it that succeeded, and a failing call changes nothing. What the registry yields for a key
and a type, and the keys it says it holds, are settled by that. -/
theorem registrations_exact [DecidableEq τ] (calls : List (RegistrationCall ι τ)) :
    let os := (empty : Registry τ).outcomes calls
    let r := (empty : Registry τ).afterCalls calls
    os.map (·.call) = calls ∧
      (∀ before o after, os = before ++ o :: after →
        o.Follows before ∧
          ∀ e, o.result = .error e →
            (empty : Registry τ).afterCalls (before.map (·.call) ++ [o.call]) =
              (empty : Registry τ).afterCalls (before.map (·.call))) ∧
      (∀ key (t : OutputType τ),
        (∀ m, r.resolve key t = .ok m ↔ First os key ⟨t, m⟩) ∧
          ∀ e, r.resolve key t = .error e ↔
            (¬ Taken os key ∧ e = .notFound key) ∨
              ∃ s, First os key s ∧ s.output ≠ t ∧ e = .typeMismatch key s.output.name t.name) ∧
      (∀ key, r.contains key = true ↔ Taken os key) ∧
      (∀ key, key ∈ r.registrations.map (·.key) ↔ Taken os key) ∧
      (r.registrations.map (·.key)).Nodup ∧
      (∀ reg, reg ∈ r.registrations ↔
        ∃ s, First os reg.key s ∧ reg.shape = s.materializer.shape ∧ reg.output = s.output.name) ∧
      r.length = r.registrations.length := by
  intro os r
  have hnodup : r.entries.keys.Nodup := nodup_keys_afterCalls (r := empty) List.nodup_nil calls
  refine ⟨map_call_outcomes _ _, ?_, ?_, ?_, ?_, ?_, ?_, ?_⟩
  · intro before o after hsplit
    refine ⟨follows_of_outcomes_eq hsplit, fun e he => ?_⟩
    rw [afterCalls_concat]
    exact afterCall_of_error ((outcomes_eq_append hsplit).2.symm ▸ he)
  · intro key t
    refine ⟨fun m => ?_, fun e => ?_⟩
    · rw [resolve_eq_ok_iff]
      exact get?_afterCalls
    · rw [resolve_eq_error_iff, get?_afterCalls_eq_none]
      simp only [r, get?_afterCalls, os]
  · exact fun key => Table.contains_iff_mem_keys.trans mem_keys_afterCalls
  · intro key
    rw [map_key_registrations]
    exact mem_keys_afterCalls
  · rwa [map_key_registrations]
  · intro reg
    rw [mem_registrations hnodup]
    simp only [r, get?_afterCalls, os]
  · exact (List.length_map _).symm

end Registry

end QueryMapping
