/-! Tables: lists of keys and entries in order of first insertion, with at most one entry for a key
as long as they are built by `set`. -/

namespace QueryMapping

abbrev Table (κ β : Type) := List (κ × β)

namespace Table

variable {κ β : Type} [DecidableEq κ]

def get? (key : κ) : Table κ β → Option β
  | [] => none
  | (k, b) :: rest => if k = key then some b else get? key rest

/-- The entry of a key that is present is replaced where it stands; a new key goes last. -/
def set (key : κ) (b : β) : Table κ β → Table κ β
  | [] => [(key, b)]
  | (k, b') :: rest => if k = key then (key, b) :: rest else (k, b') :: set key b rest

def contains (key : κ) (t : Table κ β) : Bool := (get? key t).isSome

def erase (key : κ) (t : Table κ β) : Table κ β := t.filter fun entry => entry.1 ≠ key

def keys (t : Table κ β) : List κ := t.map Prod.fst

@[simp] theorem get?_nil (key : κ) : get? key ([] : Table κ β) = none := by rw [get?]

theorem get?_set (t : Table κ β) (key key' : κ) (b : β) :
    get? key' (set key b t) = if key = key' then some b else get? key' t := by
  induction t with
  | nil => simp [set, get?]
  | cons entry rest ih =>
    obtain ⟨k, b'⟩ := entry
    unfold set
    by_cases hk : k = key <;> by_cases hk' : key = key' <;> simp_all [get?]

theorem get?_set_self (t : Table κ β) (key : κ) (b : β) : get? key (set key b t) = some b := by
  rw [get?_set, if_pos rfl]

theorem get?_set_of_ne {key key' : κ} (h : key ≠ key') (t : Table κ β) (b : β) :
    get? key' (set key b t) = get? key' t := by
  rw [get?_set, if_neg h]

theorem set_set (t : Table κ β) (key : κ) (b b' : β) : set key b' (set key b t) = set key b' t := by
  induction t with
  | nil => simp [set]
  | cons entry rest ih =>
    obtain ⟨k, b''⟩ := entry
    by_cases hk : k = key
    · simp [set, hk]
    · simp [set, hk, ih]

theorem set_of_get? {t : Table κ β} {key : κ} {b : β} (h : get? key t = some b) :
    set key b t = t := by
  induction t with
  | nil => cases h
  | cons entry rest ih =>
    obtain ⟨k, b'⟩ := entry
    by_cases hk : k = key
    · rw [get?, if_pos hk] at h
      cases h
      rw [set, if_pos hk, hk]
    · rw [get?, if_neg hk] at h
      rw [set, if_neg hk, ih h]

theorem get?_map {γ : Type} (t : Table κ β) (f : β → γ) (key : κ) :
    get? key (t.map fun entry => (entry.1, f entry.2)) = (get? key t).map f := by
  induction t with
  | nil => rfl
  | cons entry rest ih =>
    obtain ⟨k, b⟩ := entry
    by_cases hk : k = key <;> simp [get?, hk, ih]

theorem get?_append (t u : Table κ β) (key : κ) :
    get? key (t ++ u) = (get? key t).or (get? key u) := by
  induction t with
  | nil => simp
  | cons entry rest ih =>
    obtain ⟨k, b⟩ := entry
    by_cases hk : k = key <;> simp [get?, hk, ih]

theorem get?_erase_self (t : Table κ β) (key : κ) : get? key (t.erase key) = none := by
  unfold erase
  induction t with
  | nil => rfl
  | cons entry rest ih =>
    obtain ⟨k, b⟩ := entry
    by_cases hk : k = key
    · rw [List.filter_cons_of_neg (by simpa using hk)]
      exact ih
    · rw [List.filter_cons_of_pos (by simpa using hk)]
      simpa [get?, hk] using ih

theorem get?_erase_of_ne {key key' : κ} (t : Table κ β) (h : key ≠ key') :
    get? key' (t.erase key) = get? key' t := by
  unfold erase
  induction t with
  | nil => rfl
  | cons entry rest ih =>
    obtain ⟨k, b⟩ := entry
    by_cases hk : k = key
    · rw [List.filter_cons_of_neg (by simpa using hk), ih, get?, if_neg (hk ▸ h)]
    · rw [List.filter_cons_of_pos (by simpa using hk), get?, get?, ih]

theorem get?_eq_none_iff {t : Table κ β} {key : κ} : get? key t = none ↔ key ∉ keys t := by
  induction t with
  | nil => simp [keys]
  | cons entry rest ih =>
    obtain ⟨k, b⟩ := entry
    by_cases hk : k = key
    · simp [get?, keys, hk]
    · simp [get?, keys, hk, ih, Ne.symm hk]

theorem contains_iff_mem_keys {t : Table κ β} {key : κ} : contains key t = true ↔ key ∈ keys t := by
  rw [contains, Option.isSome_iff_ne_none, Ne, get?_eq_none_iff, Classical.not_not]

theorem mem_iff_get?_eq_some {t : Table κ β} (h : (keys t).Nodup) {key : κ} {b : β} :
    (key, b) ∈ t ↔ get? key t = some b := by
  induction t with
  | nil => simp
  | cons entry rest ih =>
    obtain ⟨k, b'⟩ := entry
    obtain ⟨hk, hrest⟩ := List.nodup_cons.1 h
    by_cases heq : k = key
    · subst heq
      have hmem : (k, b) ∉ rest := fun hmem => hk (List.mem_map.2 ⟨_, hmem, rfl⟩)
      simp [get?, hmem, eq_comm]
    · simp [get?, heq, Ne.symm heq, ih hrest]

theorem set_eq_append {t : Table κ β} {key : κ} (h : key ∉ keys t) (b : β) :
    set key b t = t ++ [(key, b)] := by
  induction t with
  | nil => rfl
  | cons entry rest ih =>
    obtain ⟨k, b'⟩ := entry
    obtain ⟨hk, hrest⟩ := not_or.1 (fun h' => h (List.mem_cons.2 h'))
    rw [set, if_neg (Ne.symm hk), ih hrest, List.cons_append]

theorem keys_set (t : Table κ β) (key : κ) (b : β) :
    keys (set key b t) = if key ∈ keys t then keys t else keys t ++ [key] := by
  by_cases hmem : key ∈ keys t
  · rw [if_pos hmem]
    induction t with
    | nil => cases hmem
    | cons entry rest ih =>
      obtain ⟨k, b'⟩ := entry
      by_cases hk : k = key
      · simp [set, keys, hk]
      · have hrest : key ∈ keys rest := (List.mem_cons.1 hmem).resolve_left (Ne.symm hk)
        rw [set, if_neg hk]
        exact congrArg (k :: ·) (ih hrest)
  · rw [if_neg hmem, set_eq_append hmem]
    exact List.map_append

theorem nodup_keys_set {t : Table κ β} (h : (keys t).Nodup) (key : κ) (b : β) :
    (keys (set key b t)).Nodup := by
  rw [keys_set]
  split
  · exact h
  · next hkey =>
    refine List.nodup_append.2 ⟨h, by simp, ?_⟩
    rintro k hmem k' hmem' rfl
    exact hkey (List.mem_singleton.1 hmem' ▸ hmem)

end Table

end QueryMapping
