import Mathlib.Data.List.Induction
import Mathlib.Data.List.Nodup
import Mathlib.Data.Set.List
import QueryMapping.Hub
import QueryMapping.Sample.Collaborator

/-! Runs of calls on a hub. A hub holds what was registered last at each place since it was cleared,
so that the answer to a lookup can be read off from the calls before it. -/

namespace QueryMapping

variable {ι : Type} [TypeFamily ι]

inductive Hub.Place (ι : Type) where
  | typed (i : ι) (scope : String)
  | named (name : String)

namespace Hub.Place

def key : Place ι → ComponentKey × String
  | .typed i scope => (.interface (TypeFamily.name i), scope)
  | .named name => (.named name, Hub.globalScope)

/-- As long as no two interfaces have the same name, no two places have the same key. -/
theorem key_injective (hname : Function.Injective (TypeFamily.name : ι → String)) :
    Function.Injective (key : Place ι → ComponentKey × String) := by
  intro p p' h
  cases p with
  | typed i scope =>
    cases p' with
    | typed i' scope' =>
      obtain ⟨hi, rfl⟩ := Prod.mk.inj h
      rw [hname (ComponentKey.interface.inj hi)]
    | named name => cases (Prod.mk.inj h).1
  | named name =>
    cases p' with
    | typed i scope => cases (Prod.mk.inj h).1
    | named name' => rw [ComponentKey.named.inj (Prod.mk.inj h).1]

end Hub.Place

inductive HubCall (ι : Type) [TypeFamily ι] where
  | register (c : Component ι)
  | registerScoped (scope : String) (c : Component ι)
  | registerNamed (name : String) (c : Component ι)
  | clear
  | get (i : ι)
  | getScoped (scope : String) (i : ι)
  | getNamed (name : String) (i : ι)

namespace HubCall

def put? : HubCall ι → Option (Hub.Place ι × Component ι)
  | .register c => some (.typed c.interface Hub.globalScope, c)
  | .registerScoped scope c => some (.typed c.interface scope, c)
  | .registerNamed name c => some (.named name, c)
  | .clear | .get _ | .getScoped .. | .getNamed .. => none

def sought? : HubCall ι → Option (Hub.Place ι × ι)
  | .get i => some (.typed i Hub.globalScope, i)
  | .getScoped scope i => some (.typed i scope, i)
  | .getNamed name i => some (.named name, i)
  | .register _ | .registerScoped .. | .registerNamed .. | .clear => none

/-- Of all that the calls have registered at some of the places since the hub was last cleared, `c`
is what was registered last. -/
def Last (calls : List (HubCall ι)) (here : Hub.Place ι → Prop) (c : Component ι) : Prop :=
  ∃ before call after p, calls = before ++ call :: after ∧ call.put? = some (p, c) ∧ here p ∧
    ∀ call' ∈ after, call' ≠ .clear ∧ ∀ p' c', call'.put? = some (p', c') → ¬ here p'

variable {calls : List (HubCall ι)} {call : HubCall ι} {here : Hub.Place ι → Prop} {c : Component ι}

theorem not_last_nil : ¬ Last [] here c := by
  rintro ⟨before, call, after, p, heq, -⟩
  simp at heq

theorem last_concat : Last (calls ++ [call]) here c ↔ (∃ p, call.put? = some (p, c) ∧ here p) ∨
    Last calls here c ∧ call ≠ .clear ∧ ∀ p c', call.put? = some (p, c') → ¬ here p := by
  constructor
  · rintro ⟨before, call', after, p, heq, hput, hp, hafter⟩
    rcases List.eq_nil_or_concat after with rfl | ⟨after, last, rfl⟩
    · obtain ⟨-, hcall⟩ := List.append_inj' heq rfl
      obtain rfl := (List.cons.inj hcall).1
      exact .inl ⟨p, hput, hp⟩
    · rw [List.concat_eq_append] at heq hafter
      obtain ⟨rfl, hcall⟩ : calls = before ++ call' :: after ∧ [call] = [last] :=
        List.append_inj' (by simpa using heq) rfl
      obtain rfl := (List.cons.inj hcall).1
      refine .inr ⟨⟨before, call', after, p, rfl, hput, hp, fun call'' hmem => ?_⟩, ?_⟩
      · exact hafter call'' (List.mem_append_left _ hmem)
      · exact hafter call (by simp)
  · rintro (⟨p, hput, hp⟩ | ⟨⟨before, call', after, p, rfl, hput, hp, hafter⟩, hcall⟩)
    · exact ⟨calls, call, [], p, rfl, hput, hp, nofun⟩
    · refine ⟨before, call', after ++ [call], p, by simp, hput, hp, fun call'' hmem => ?_⟩
      rcases List.mem_append.1 hmem with hmem | hmem
      · exact hafter call'' hmem
      · exact List.mem_singleton.1 hmem ▸ hcall

theorem interface_of_last {i : ι} {scope : String} (h : Last calls (· = .typed i scope) c) :
    c.interface = i := by
  obtain ⟨-, call, -, p, -, hput, rfl, -⟩ := h
  cases call with
  | register c' | registerScoped scope' c' =>
    obtain ⟨hplace, rfl⟩ := Prod.mk.inj (Option.some.inj hput)
    exact (Hub.Place.typed.inj hplace).1
  | registerNamed name c' => cases (Prod.mk.inj (Option.some.inj hput)).1
  | clear | get i' | getScoped scope' i' | getNamed name i' => cases hput

theorem last_key_iff (hname : Function.Injective (TypeFamily.name : ι → String)) (p : Hub.Place ι) :
    Last calls (·.key = p.key) c ↔ Last calls (· = p) c := by
  simp only [(Hub.Place.key_injective hname).eq_iff]

end HubCall

namespace Hub

open HubCall

def afterCall (hub : Hub ι) : HubCall ι → Hub ι
  | .register c => hub.register c
  | .registerScoped scope c => hub.registerScoped scope c
  | .registerNamed name c => hub.registerNamed name c
  | .clear => hub.clear
  | .get _ | .getScoped .. | .getNamed .. => hub

def afterCalls (hub : Hub ι) (calls : List (HubCall ι)) : Hub ι := calls.foldl afterCall hub

theorem afterCalls_append (hub : Hub ι) (calls calls' : List (HubCall ι)) :
    hub.afterCalls (calls ++ calls') = (hub.afterCalls calls).afterCalls calls' :=
  List.foldl_append ..

theorem afterCall_cases (hub : Hub ι) (call : HubCall ι) :
    (∃ p c, call.put? = some (p, c) ∧ call ≠ .clear ∧
      (hub.afterCall call).entries = hub.entries.set p.key c) ∨
      (call.put? = none ∧ call = .clear ∧ (hub.afterCall call).entries = []) ∨
      (call.put? = none ∧ call ≠ .clear ∧ hub.afterCall call = hub) := by
  cases call with
  | register c => exact .inl ⟨_, c, rfl, nofun, rfl⟩
  | registerScoped scope c => exact .inl ⟨_, c, rfl, nofun, rfl⟩
  | registerNamed name c => exact .inl ⟨_, c, rfl, nofun, rfl⟩
  | clear => exact .inr (.inl ⟨rfl, rfl, rfl⟩)
  | get i | getScoped scope i | getNamed name i => exact .inr (.inr ⟨rfl, nofun, rfl⟩)

theorem get?_afterCalls {calls : List (HubCall ι)} {key : ComponentKey × String} {c : Component ι} :
    ((empty : Hub ι).afterCalls calls).entries.get? key = some c ↔ Last calls (·.key = key) c := by
  -- Only the end of the run tells what is last, so the induction takes the last call off.
  induction calls using List.reverseRecOn with
  | nil => simp [afterCalls, empty, not_last_nil]
  | append_singleton calls call ih =>
    rw [afterCalls_append, last_concat, ← ih]
    change ((Hub.afterCall _ call).entries.get? key = some c) ↔ _
    obtain ⟨p, c', hput, hclear, heq⟩ | ⟨hput, hclear, heq⟩ | ⟨hput, hclear, heq⟩ :=
      ((empty : Hub ι).afterCalls calls).afterCall_cases call
    · rw [heq, Table.get?_set]
      by_cases hp : p.key = key
      · simp [hput, hp]
      · simp [hput, hp, hclear]
    · subst hclear
      simp [heq, put?]
    · simp [heq, hput, hclear]

theorem nodup_keys_afterCalls (calls : List (HubCall ι)) :
    ((empty : Hub ι).afterCalls calls).entries.keys.Nodup := by
  induction calls using List.reverseRecOn with
  | nil => exact List.nodup_nil
  | append_singleton calls call ih =>
    rw [afterCalls_append]
    change (Hub.afterCall _ call).entries.keys.Nodup
    obtain ⟨p, c, -, -, heq⟩ | ⟨-, -, heq⟩ | ⟨-, -, heq⟩ :=
      ((empty : Hub ι).afterCalls calls).afterCall_cases call
    · rw [heq]
      exact Table.nodup_keys_set ih p.key c
    · rw [heq]
      exact List.nodup_nil
    · rwa [heq]

theorem mem_keys_afterCalls {calls : List (HubCall ι)} {key : ComponentKey × String} :
    key ∈ ((empty : Hub ι).afterCalls calls).entries.keys ↔ ∃ c, Last calls (·.key = key) c := by
  rw [← Table.contains_iff_mem_keys, Table.contains, Option.isSome_iff_exists]
  simp only [get?_afterCalls]

section Lookup

variable [DecidableEq ι] {hub : Hub ι} {key : ComponentKey} {scope : String} {i : ι}

theorem lookup_eq_ok_iff {a : TypeFamily.Carrier i} :
    hub.lookup key scope i = .ok a ↔ hub.entries.get? (key, scope) = some ⟨i, a⟩ := by
  unfold lookup
  cases hub.entries.get? (key, scope) with
  | none => simp
  | some c =>
    obtain ⟨interface, value⟩ := c
    by_cases h : interface = i
    · subst h
      simp
    · simp [h]

theorem lookup_eq_error_iff {e : HubError} : hub.lookup key scope i = .error e ↔
    (hub.entries.get? (key, scope) = none ∧ e = .notFound key scope) ∨
      ∃ c, hub.entries.get? (key, scope) = some c ∧ c.interface ≠ i ∧
        e = .typeMismatch key scope (TypeFamily.name i) := by
  unfold lookup
  cases hub.entries.get? (key, scope) with
  | none => simp [eq_comm]
  | some c =>
    by_cases h : c.interface = i
    · simp [h]
    · simp [h, @eq_comm _ _ e]

def yielded? (hub : Hub ι) : HubCall ι → Option (Component ι)
  | .get i => (hub.get i).toOption.map (⟨i, ·⟩)
  | .getScoped scope i => (hub.getScoped scope i).toOption.map (⟨i, ·⟩)
  | .getNamed name i => (hub.getNamed name i).toOption.map (⟨i, ·⟩)
  | .register _ | .registerScoped .. | .registerNamed .. | .clear => none

def obtained : Hub ι → List (HubCall ι) → List (Component ι)
  | _, [] => []
  | hub, call :: calls => (hub.yielded? call).toList ++ (hub.afterCall call).obtained calls

theorem obtained_append (hub : Hub ι) (calls calls' : List (HubCall ι)) :
    hub.obtained (calls ++ calls') =
      hub.obtained calls ++ (hub.afterCalls calls).obtained calls' := by
  induction calls generalizing hub with
  | nil => rfl
  | cons call calls ih =>
    rw [List.cons_append, obtained, ih, obtained, List.append_assoc]
    rfl

theorem yielded?_of_get? {call : HubCall ι} {p : Place ι} {c : Component ι}
    (hsought : call.sought? = some (p, c.interface)) (h : hub.entries.get? p.key = some c) :
    hub.yielded? call = some c := by
  obtain ⟨i, a⟩ := c
  cases call with
  | get i' | getScoped scope i' | getNamed name i' =>
    obtain ⟨rfl, rfl⟩ := Prod.mk.inj (Option.some.inj hsought)
    have hok := lookup_eq_ok_iff.2 h
    simp only [yielded?, get, getScoped, getNamed, hok]
    rfl
  | register c | registerScoped scope c | registerNamed name c | clear => cases hsought

end Lookup

theorem exists_places (hname : Function.Injective (TypeFamily.name : ι → String))
    (calls : List (HubCall ι)) :
    ∃ places : List (Place ι), places.Nodup ∧ (∀ p, p ∈ places ↔ ∃ c, Last calls (· = p) c) ∧
      ((empty : Hub ι).afterCalls calls).length = places.length := by
  have hplaced : ∀ key ∈ ((empty : Hub ι).afterCalls calls).entries.keys, ∃ p : Place ι,
      p.key = key := by
    intro key hkey
    obtain ⟨c, -, -, -, p, -, -, hp, -⟩ := mem_keys_afterCalls.1 hkey
    exact ⟨p, hp⟩
  obtain ⟨places, hplaces⟩ :
      ((empty : Hub ι).afterCalls calls).entries.keys ∈ Set.range (List.map Place.key) := by
    rw [Set.range_list_map]
    exact hplaced
  have hnodup := nodup_keys_afterCalls calls
  rw [← hplaces] at hnodup
  refine ⟨places, hnodup.of_map, fun p => ?_, ?_⟩
  · simp only [← last_key_iff hname, ← mem_keys_afterCalls, ← hplaces]
    exact (List.mem_map_of_injective (Place.key_injective hname)).symm
  · calc ((empty : Hub ι).afterCalls calls).length
        = ((empty : Hub ι).afterCalls calls).entries.keys.length := (List.length_map _).symm
      _ = places.length := by rw [← hplaces, List.length_map]

/-- Whatever is registered, in whichever order, and whenever the hub is cleared: a lookup finds what
was registered last at its place and nothing else, and what it has yielded stays as it is. -/
theorem lookups_exact [DecidableEq ι] (hname : Function.Injective (TypeFamily.name : ι → String))
    (calls : List (HubCall ι)) :
    let hub := (empty : Hub ι).afterCalls calls
    (∀ i scope,
      (∀ a, hub.getScoped scope i = .ok a ↔ Last calls (· = .typed i scope) ⟨i, a⟩) ∧
        ∀ e, hub.getScoped scope i = .error e ↔
          (¬ ∃ c, Last calls (· = .typed i scope) c) ∧
            e = .notFound (.interface (TypeFamily.name i)) scope) ∧
      (∀ name i,
        (∀ a, hub.getNamed name i = .ok a ↔ Last calls (· = .named name) ⟨i, a⟩) ∧
          ∀ e, hub.getNamed name i = .error e ↔
            ((¬ ∃ c, Last calls (· = .named name) c) ∧ e = .notFound (.named name) globalScope) ∨
              ∃ c, Last calls (· = .named name) c ∧ c.interface ≠ i ∧
                e = .typeMismatch (.named name) globalScope (TypeFamily.name i)) ∧
      ((∀ i, hub.get i = hub.getScoped "global" i) ∧
        ∀ c, hub.register c = hub.registerScoped "global" c) ∧
      (∀ i, hub.contains i = true ↔ ∃ a, hub.get i = .ok a) ∧
      (∃ places : List (Place ι), places.Nodup ∧ (∀ p, p ∈ places ↔ ∃ c, Last calls (· = p) c) ∧
        hub.length = places.length) ∧
      -- What a call yields is what was registered last by then, and no later call changes it.
      ∀ before call later p c, calls = before ++ call :: later →
        call.sought? = some (p, c.interface) →
        Last before (· = p) c →
          ∃ more, empty.obtained calls = empty.obtained before ++ c :: more := by
  intro hub
  have hget : ∀ (p : Place ι) c, hub.entries.get? p.key = some c ↔
      Last calls (· = p) c := fun p c =>
    get?_afterCalls.trans (last_key_iff hname p)
  have hnone : ∀ p : Place ι, hub.entries.get? p.key = none ↔ ¬ ∃ c, Last calls (· = p) c := by
    intro p
    rw [Option.eq_none_iff_forall_ne_some, not_exists]
    exact forall_congr' fun c => not_congr (hget p c)
  refine ⟨fun i scope => ⟨fun a => ?_, fun e => ?_⟩, fun name i => ⟨fun a => ?_, fun e => ?_⟩,
    ⟨fun _ => rfl, fun _ => rfl⟩, fun i => ?_, exists_places hname calls, ?_⟩
  · exact lookup_eq_ok_iff.trans (hget (.typed i scope) _)
  · refine lookup_eq_error_iff.trans
      ⟨?_, fun ⟨hfree, he⟩ => .inl ⟨(hnone (.typed i scope)).2 hfree, he⟩⟩
    rintro (⟨hfree, he⟩ | ⟨c, hc, hne, -⟩)
    · exact ⟨(hnone (.typed i scope)).1 hfree, he⟩
    · exact absurd (interface_of_last ((hget (.typed i scope) c).1 hc)) hne
  · exact lookup_eq_ok_iff.trans (hget (.named name) _)
  · refine lookup_eq_error_iff.trans (or_congr (and_congr_left' (hnone (.named name))) ?_)
    exact exists_congr fun c => and_congr_left' (hget (.named name) c)
  · have hcontains : hub.contains i = true ↔
        ∃ c, hub.entries.get? (Place.typed i globalScope).key = some c :=
      Option.isSome_iff_exists
    rw [hcontains]
    constructor
    · rintro ⟨⟨i', a⟩, hc⟩
      obtain rfl : i' = i := interface_of_last ((hget (.typed i globalScope) _).1 hc)
      exact ⟨a, lookup_eq_ok_iff.2 hc⟩
    · rintro ⟨a, ha⟩
      exact ⟨_, lookup_eq_ok_iff.1 ha⟩
  · rintro before call later p c rfl hsought hlast
    have hyield : ((empty : Hub ι).afterCalls before).yielded? call = some c :=
      yielded?_of_get? hsought (get?_afterCalls.2 ((last_key_iff hname p).2 hlast))
    refine ⟨(((empty : Hub ι).afterCalls before).afterCall call).obtained later, ?_⟩
    rw [obtained_append, obtained, hyield]
    rfl

open Sample in
theorem lookups_exact_alike :
    let before : List (HubCall Interface) :=
      [.register (Interface.greeter.component "a"), .clear,
        .registerNamed "dyn Greeter" (Interface.text.component "n"),
        .register (Interface.greeter.component "b")]
    let later : List (HubCall Interface) :=
      [.register (Interface.greeter.component "c"),
        .registerScoped "dyn Greeter" (Interface.greeter.component "d")]
    let calls := before ++ .get .greeter :: later
    Function.Injective (TypeFamily.name : Interface → String) ∧
      Last calls (· = .typed .greeter "global") (Interface.greeter.component "c") ∧
      Last calls (· = .named "dyn Greeter") (Interface.text.component "n") ∧
      ∃ more, empty.obtained calls =
        empty.obtained before ++ Interface.greeter.component "b" :: more := by
  intro before later calls
  have hcalls := lookups_exact Interface.name_injective calls
  have hbefore := lookups_exact Interface.name_injective before
  refine ⟨Interface.name_injective, ((hcalls.1 .greeter "global").1 ⟨"c"⟩).1 rfl,
    ((hcalls.2.1 "dyn Greeter" .text).1 "n").1 rfl, ?_⟩
  have hlast : Last before (· = .typed .greeter "global") (Interface.greeter.component "b") :=
    ((hbefore.1 .greeter "global").1 ⟨"b"⟩).1 rfl
  exact hcalls.2.2.2.2.2 before (.get .greeter) later _ _ rfl rfl hlast

end Hub

end QueryMapping
