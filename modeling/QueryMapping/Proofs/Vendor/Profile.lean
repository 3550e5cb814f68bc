import QueryMapping.Proofs.Settings.Text
import QueryMapping.Proofs.Vendor.Section

/-! The settings of a test run as a file and environment variables give them. Each variable takes
the place of one key, whatever the file and the other variable say. -/

namespace QueryMapping

namespace TestSettings

variable {profiles scripts : Option Node} {key text : String} {node : Node}
    {vars : List (String × String)}

/-! ### What a variable's text gives -/

/-- The value of a key: what the text of its variable names, or what is kept if the variable is not
set. -/
def Given {α : Type} (setting : Option String) (kept : Option α) (Names : String → α → Prop)
    (value : Option α) :
    Prop :=
  setting.elim (value = kept) fun text => ∃ a, value = some a ∧ Names text a

theorem exists_given_iff {α : Type} {setting : Option String} (kept : Option α)
    {Names : String → α → Prop} :
    (∃ value, Given setting kept Names value) ↔ ∀ text ∈ setting, ∃ a, Names text a := by
  cases setting with
  | none => exact iff_of_true ⟨kept, rfl⟩ nofun
  | some text =>
    constructor
    · rintro ⟨value, a, -, ha⟩ text' htext
      obtain rfl := Option.some.inj htext
      exact ⟨a, ha⟩
    · intro h
      obtain ⟨a, ha⟩ := h text rfl
      exact ⟨some a, a, rfl, ha⟩

def NamesVendor (text : String) (v : Vendor) : Prop :=
  ∃ name, Settings.ofText text = .text name ∧
    Text.sameFolded v.name.toList (Text.trim name.toList) = true

def NamesDir (text dir : String) : Prop := Settings.ofText text = .text dir

theorem namesVendor_iff {v : Vendor}
    (hquote : ∀ c ∈ (Text.trim text.toList).head?, c ≠ '"' ∧ c ≠ '\'') :
    NamesVendor text v ↔ Text.sameFolded v.name.toList (Text.trim text.toList) = true := by
  constructor
  · rintro ⟨name, hname, hv⟩
    rwa [← Settings.trim_of_ofText hname hquote]
  · intro hv
    obtain ⟨hall, c, rest, htrim, hc⟩ := Vendor.exists_cons_of_sameFolded hv
    refine ⟨_, Settings.ofText_of_word
      (fun d hd => (Text.isBlank_or_mem_trim hd).imp_right (hall d)) htrim hc, ?_⟩
    rwa [String.toList_ofList, Text.trim_idem]

theorem vendor?_eq_ok_iff {v : Vendor} :
    vendor? node = .ok v ↔
    ∃ name, node = .text name ∧ Text.sameFolded v.name.toList (Text.trim name.toList) = true := by
  cases node with
  | text name =>
    simp only [vendor?, Node.text.injEq, exists_eq_left', ← Vendor.parse?_eq_some_iff]
    cases Vendor.parse? name <;> simp
  | _ => simp [vendor?]

theorem vendor?_eq_error {e : SettingsError} (h : vendor? node = .error e) :
    e = .refused [] ∨ e = .invalidType [] := by
  unfold vendor? at h
  split at h
  · split at h
    · cases h
    · exact .inl (Except.error.inj h).symm
  · exact .inr (Except.error.inj h).symm

theorem text?_eq_ok_iff {value : String} : Node.text? node = .ok value ↔ node = .text value := by
  cases node <;> simp [Node.text?]

theorem text?_eq_error {e : SettingsError} (h : Node.text? node = .error e) :
    e = .invalidType [] := by
  unfold Node.text? at h
  split at h
  · cases h
  · exact (Except.error.inj h).symm

section Keyed

variable {α : Type} {part : String} {read : Node.Reader α} {set : Option α → TestSettings}

theorem readAlone_ofText
    (hpart : ∀ node, readAlone part (some (keyed key node)) =
      ((Node.optional? read node).mapError (·.mapPath ([part, key] ++ ·))).map set)
      (text : String) :
    readAlone part (some (keyed key (Settings.ofText text))) =
      ((read (Settings.ofText text)).mapError (·.mapPath ([part, key] ++ ·))).map fun a =>
        set (some a) := by
  rw [hpart, Node.optional?_of_ne_null read (Settings.ofText_ne_null text)]
  cases read (Settings.ofText text) <;> rfl

theorem exists_readAlone_ofText_iff {field : TestSettings → Option α} {Names : String → α → Prop}
    (hpart : ∀ node, readAlone part (some (keyed key node)) =
      ((Node.optional? read node).mapError (·.mapPath ([part, key] ++ ·))).map set)
    (hfield : ∀ value, field (set value) = value)
    (hnames : ∀ a, read (Settings.ofText text) = .ok a ↔ Names text a) (value : Option α) :
    (∃ s, readAlone part (some (keyed key (Settings.ofText text))) = .ok s ∧ field s = value) ↔
      ∃ a, value = some a ∧ Names text a := by
  simp only [readAlone_ofText hpart, map_eq_ok_iff, mapError_eq_ok_iff, hnames]
  constructor
  · rintro ⟨_, ⟨a, ha, rfl⟩, rfl⟩
    exact ⟨a, hfield _, ha⟩
  · rintro ⟨a, rfl, ha⟩
    exact ⟨_, ⟨a, ha, rfl⟩, hfield _⟩

theorem exists_error_of_readAlone_ofText {e : SettingsError}
    (hpart : ∀ node, readAlone part (some (keyed key node)) =
      ((Node.optional? read node).mapError (·.mapPath ([part, key] ++ ·))).map set)
    (h : readAlone part (some (keyed key (Settings.ofText text))) = .error e) :
    ∃ e', read (Settings.ofText text) = .error e' ∧ e'.mapPath ([part, key] ++ ·) = e := by
  rw [readAlone_ofText hpart, map_eq_error_iff] at h
  exact mapError_eq_error_iff.1 h

end Keyed

theorem exists_readAlone_active_iff (text : String) (active : Option Vendor) :
    (∃ s, readAlone "profiles" (some (keyed "active" (Settings.ofText text))) = .ok s ∧
      s.active = active) ↔
      ∃ v, active = some v ∧ NamesVendor text v :=
  exists_readAlone_ofText_iff readAlone_profiles_keyed (fun _ => rfl)
    (fun _ => vendor?_eq_ok_iff) active

theorem exists_readAlone_dir_iff (text : String) (scriptDir : Option String) :
    (∃ s, readAlone "scripts" (some (keyed "dir" (Settings.ofText text))) = .ok s ∧
      s.scriptDir = scriptDir) ↔
      ∃ dir, scriptDir = some dir ∧ NamesDir text dir :=
  exists_readAlone_ofText_iff readAlone_scripts_keyed (fun _ => rfl)
    (fun _ => text?_eq_ok_iff) scriptDir

theorem readAlone_active_eq_error {e : SettingsError}
    (h : readAlone "profiles" (some (keyed "active" (Settings.ofText text))) = .error e) :
    e = .refused ["profiles", "active"] ∨ e = .invalidType ["profiles", "active"] := by
  obtain ⟨e', he', rfl⟩ := exists_error_of_readAlone_ofText readAlone_profiles_keyed h
  rcases vendor?_eq_error he' with rfl | rfl
  · exact .inl rfl
  · exact .inr rfl

theorem readAlone_dir_eq_error {e : SettingsError}
    (h : readAlone "scripts" (some (keyed "dir" (Settings.ofText text))) = .error e) :
    e = .invalidType ["scripts", "dir"] := by
  obtain ⟨e', he', rfl⟩ := exists_error_of_readAlone_ofText readAlone_scripts_keyed h
  rw [text?_eq_error he']
  rfl

/-! ### Files -/

theorem exists_of_ascending {members : List (String × Node)} (h : Ascending members)
    (hkeys : ∀ m ∈ members, m.1 = key) :
    ∃ value : Option Node, members = value.toList.map ((key, ·)) := by
  match members, h, hkeys with
  | [], _, _ => exact ⟨none, rfl⟩
  | [(k, node)], _, hkeys =>
    obtain rfl : k = key := hkeys _ (.head _)
    exact ⟨some node, rfl⟩
  | m :: m' :: rest, h, hkeys =>
    have hlt : m.1 < m'.1 := (List.pairwise_cons.1 h).1 _ (.head _)
    rw [hkeys m (.head _), hkeys m' (.tail _ (.head _))] at hlt
    exact absurd hlt (lt_irrefl _)

theorem exists_sections {members : List (String × Node)} (h : Ascending members)
    (hkeys : ∀ m ∈ members, m.1 = "profiles" ∨ m.1 = "scripts") :
    ∃ profiles scripts, Node.record members = sections profiles scripts := by
  cases members with
  | nil => exact ⟨none, none, rfl⟩
  | cons first rest =>
    obtain ⟨name, node⟩ := first
    have hafter : ∀ m ∈ rest, name < m.1 :=
      fun m hm => (List.pairwise_cons.1 h).1 _ (List.mem_map_of_mem hm)
    obtain ⟨hfirst, hrest⟩ := List.forall_mem_cons.1 hkeys
    rcases hfirst with rfl | rfl
    · obtain ⟨scripts, rfl⟩ := exists_of_ascending (List.pairwise_cons.1 h).2 fun m hm =>
        (hrest m hm).resolve_left (hafter m hm).ne'
      exact ⟨some node, scripts, rfl⟩
    · have hlt : ¬ "scripts" < "profiles" := by decide
      obtain ⟨scripts, hscripts⟩ := exists_of_ascending h fun m hm => by
        rcases List.mem_cons.1 hm with rfl | hm
        · rfl
        · exact (hrest m hm).resolve_left fun heq => hlt (heq ▸ hafter m hm)
      exact ⟨none, scripts, congrArg Node.record hscripts⟩

theorem eq_active_of_readProfiles {s s' : TestSettings} {name : String}
    (h : readProfiles s name node = .ok s') :
    name = "active" := by
  unfold readProfiles at h
  split at h
  · rfl
  · cases h

theorem eq_dir_of_readScripts {s s' : TestSettings} {name : String}
    (h : readScripts s name node = .ok s') :
    name = "dir" := by
  unfold readScripts at h
  split at h
  · rfl
  · cases h

theorem known_of_readSection {s s' : TestSettings} {name : String}
    (h : readSection s name node = .ok s') :
    name = "profiles" ∨ name = "scripts" := by
  unfold readSection at h
  split at h
  · exact .inl rfl
  · exact .inr rfl
  · cases h

theorem hasOnly_of_readAlone {names : List String}
    {step : TestSettings → String → Node.Reader TestSettings}
    {part : String} {old : Option Node} {s : TestSettings}
    (hpart : readSection ⟨none, none⟩ part = Node.allFields? names step ⟨none, none⟩)
    (hknown : ∀ s name node s', step s name node = .ok s' → name = key)
    (hkeys : ∀ node ∈ old, Ascending (membersOf node)) (h : readAlone part old = .ok s) :
    HasOnly key old := by
  cases old with
  | none => exact ⟨none, rfl⟩
  | some node =>
    have hread : readSection ⟨none, none⟩ part node = .ok s := mapError_eq_ok_iff.1 h
    rw [hpart] at hread
    cases node with
    | record members =>
      obtain ⟨s', hfields, -⟩ := bind_eq_ok_iff.1 hread
      refine exists_of_ascending (hkeys _ rfl) fun m hm => ?_
      obtain ⟨c, c', hstep⟩ := Node.exists_of_fields?_eq_ok hfields m hm
      exact hknown c m.1 m.2 c' hstep
    | _ => exact ⟨none, rfl⟩

theorem ascending_membersOf (h : node.Ordered) : Ascending (membersOf node) := by
  cases h with
  | record hkeys hmembers => exact hkeys
  | null | bool | int | float | text | list => exact .nil

structure IsFile (file : Node) (s₀ : TestSettings) (profiles scripts : Option Node) : Prop where
  eq_sections : file = sections profiles scripts
  profiles_only : HasOnly "active" profiles
  scripts_only : HasOnly "dir" scripts
  active : ∃ s, readAlone "profiles" profiles = .ok s ∧ s.active = s₀.active
  scriptDir : ∃ s, readAlone "scripts" scripts = .ok s ∧ s.scriptDir = s₀.scriptDir

theorem exists_isFile {members : List (String × Node)} {s₀ : TestSettings}
    (hordered : (Node.record members).Ordered) (hfile : extract (.record members) [] = .ok s₀) :
    ∃ profiles scripts, IsFile (.record members) s₀ profiles scripts := by
  cases hordered with
  | record hkeys hmembers =>
    have hread : ofNode (.record members) = .ok s₀ := hfile
    obtain ⟨profiles, scripts, hsections⟩ := exists_sections hkeys fun m hm => by
      obtain ⟨c, c', hstep⟩ := Node.exists_of_fields?_eq_ok hread m hm
      exact known_of_readSection hstep
    have hparts := Node.record.inj hsections
    have hprofiles : ∀ node ∈ profiles, Ascending (membersOf node) := fun node hnode =>
      ascending_membersOf (hmembers ("profiles", node) (by rw [hparts]; simp_all))
    have hscripts : ∀ node ∈ scripts, Ascending (membersOf node) := fun node hnode =>
      ascending_membersOf (hmembers ("scripts", node) (by rw [hparts]; simp_all))
    rw [hsections, ofNode_sections] at hread
    obtain ⟨s, hs, hread⟩ := bind_eq_ok_iff.1 hread
    obtain ⟨t, ht, hread⟩ := bind_eq_ok_iff.1 hread
    obtain rfl := Except.ok.inj hread
    exact ⟨profiles, scripts, hsections,
      hasOnly_of_readAlone rfl (fun _ _ _ _ => eq_active_of_readProfiles) hprofiles hs,
      hasOnly_of_readAlone rfl (fun _ _ _ _ => eq_dir_of_readScripts) hscripts ht,
      ⟨s, hs, rfl⟩, ⟨t, ht, rfl⟩⟩

variable {file : Node} {s₀ : TestSettings}

theorem IsFile.extract_layers (h : IsFile file s₀ profiles scripts)
    (vars : List (String × String)) :
    extract file vars = do
      let s ← readAlone "profiles" (overlaid "active" activeVariable vars profiles)
      let t ← readAlone "scripts" (overlaid "dir" dirVariable vars scripts)
      return ⟨s.active, t.scriptDir⟩ := by
  rw [extract, h.eq_sections, layered_sections h.profiles_only h.scripts_only, ofNode_sections]

section Overlaid

variable {α : Type} {name part : String} {old : Option Node} {field : TestSettings → Option α}
    {kept : Option α}
  {Names : String → α → Prop}

theorem exists_overlaid_iff (hold : ∃ s, readAlone part old = .ok s ∧ field s = kept)
    (hnew : ∀ text value,
      (∃ s, readAlone part (some (keyed key (Settings.ofText text))) = .ok s ∧ field s = value) ↔
      ∃ a, value = some a ∧ Names text a) (vars : List (String × String)) (value : Option α) :
    (∃ s, readAlone part (overlaid key name vars old) = .ok s ∧ field s = value) ↔
      Given (setting? name vars) kept Names value := by
  unfold overlaid Given
  cases setting? name vars with
  | none =>
    obtain ⟨s, hs, rfl⟩ := hold
    rw [Option.map_none, Option.none_or, hs, Option.elim_none]
    simp [eq_comm]
  | some text => exact hnew text value

theorem exists_overlaid_eq_ok_iff (hold : ∃ s, readAlone part old = .ok s ∧ field s = kept)
    (hnew : ∀ text value,
      (∃ s, readAlone part (some (keyed key (Settings.ofText text))) = .ok s ∧ field s = value) ↔
      ∃ a, value = some a ∧ Names text a) (vars : List (String × String)) :
    (∃ s, readAlone part (overlaid key name vars old) = .ok s) ↔
    ∀ text ∈ setting? name vars, ∃ a, Names text a := by
  rw [← exists_given_iff kept]
  simp only [← exists_overlaid_iff hold hnew vars]
  exact ⟨fun ⟨s, hs⟩ => ⟨field s, s, hs, rfl⟩, fun ⟨_, s, hs, _⟩ => ⟨s, hs⟩⟩

theorem exists_overlaid_eq_error_iff (hold : ∃ s, readAlone part old = .ok s ∧ field s = kept)
    (hnew : ∀ text value,
      (∃ s, readAlone part (some (keyed key (Settings.ofText text))) = .ok s ∧ field s = value) ↔
      ∃ a, value = some a ∧ Names text a) (vars : List (String × String)) :
    (∃ e, readAlone part (overlaid key name vars old) = .error e) ↔
      ∃ text ∈ setting? name vars, ∀ a, ¬ Names text a := by
  rw [exists_eq_error_iff, exists_overlaid_eq_ok_iff hold hnew]
  push Not
  rfl

theorem exists_error_of_overlaid {e : SettingsError}
    (hold : ∃ s, readAlone part old = .ok s ∧ field s = kept)
    (h : readAlone part (overlaid key name vars old) = .error e) :
    ∃ text, readAlone part (some (keyed key (Settings.ofText text))) = .error e := by
  unfold overlaid at h
  cases hset : setting? name vars with
  | none =>
    obtain ⟨s, hs, -⟩ := hold
    rw [hset, Option.map_none, Option.none_or, hs] at h
    cases h
  | some text =>
    rw [hset] at h
    exact ⟨text, h⟩

end Overlaid

theorem IsFile.extract_eq_ok_iff (h : IsFile file s₀ profiles scripts) (s : TestSettings) :
    extract file vars = .ok s ↔
      Given (setting? activeVariable vars) s₀.active NamesVendor s.active ∧
        Given (setting? dirVariable vars) s₀.scriptDir NamesDir s.scriptDir := by
  rw [← exists_overlaid_iff h.active exists_readAlone_active_iff,
    ← exists_overlaid_iff h.scriptDir exists_readAlone_dir_iff, h.extract_layers]
  simp only [bind_eq_ok_iff]
  constructor
  · rintro ⟨s₁, hs₁, s₂, hs₂, hs⟩
    obtain rfl := Except.ok.inj hs
    exact ⟨⟨s₁, hs₁, rfl⟩, s₂, hs₂, rfl⟩
  · rintro ⟨⟨s₁, hs₁, hactive⟩, s₂, hs₂, hdir⟩
    exact ⟨s₁, hs₁, s₂, hs₂, by rw [hactive, hdir]; rfl⟩

theorem IsFile.extract_eq_error_iff (h : IsFile file s₀ profiles scripts) (e : SettingsError) :
    extract file vars = .error e ↔
      readAlone "profiles" (overlaid "active" activeVariable vars profiles) = .error e ∨
        (∃ s, readAlone "profiles" (overlaid "active" activeVariable vars profiles) = .ok s) ∧
          readAlone "scripts" (overlaid "dir" dirVariable vars scripts) = .error e := by
  rw [h.extract_layers, bind_eq_error_iff, ← exists_and_right]
  refine or_congr_right (exists_congr fun s => and_congr_right fun _ => ?_)
  rw [bind_eq_error_iff]
  exact or_iff_left nofun

theorem IsFile.extract_eq_error_active_iff (h : IsFile file s₀ profiles scripts) :
    (extract file vars = .error (.refused ["profiles", "active"]) ∨
        extract file vars = .error (.invalidType ["profiles", "active"])) ↔
      ∃ text ∈ setting? activeVariable vars, ∀ v, ¬ NamesVendor text v := by
  rw [← exists_overlaid_eq_error_iff h.active exists_readAlone_active_iff]
  have hdir {e : SettingsError}
    (he : readAlone "scripts" (overlaid "dir" dirVariable vars scripts) = .error e) :
      e = .invalidType ["scripts", "dir"] := by
    obtain ⟨text, htext⟩ := exists_error_of_overlaid h.scriptDir he
    exact readAlone_dir_eq_error htext
  constructor
  · rintro (hload | hload)
    all_goals
      rcases (h.extract_eq_error_iff _).1 hload with hprofiles | ⟨-, hscripts⟩
      · exact ⟨_, hprofiles⟩
      · exact absurd (hdir hscripts) (by decide)
  · rintro ⟨e, he⟩
    obtain ⟨text, htext⟩ := exists_error_of_overlaid h.active he
    rcases readAlone_active_eq_error htext with rfl | rfl
    · exact .inl ((h.extract_eq_error_iff _).2 (.inl he))
    · exact .inr ((h.extract_eq_error_iff _).2 (.inl he))

theorem IsFile.extract_eq_error_dir_iff (h : IsFile file s₀ profiles scripts) :
    extract file vars = .error (.invalidType ["scripts", "dir"]) ↔
      (∀ text ∈ setting? activeVariable vars, ∃ v, NamesVendor text v) ∧
        ∃ text ∈ setting? dirVariable vars, ∀ dir, ¬ NamesDir text dir := by
  rw [← exists_overlaid_eq_ok_iff h.active exists_readAlone_active_iff,
    ← exists_overlaid_eq_error_iff h.scriptDir exists_readAlone_dir_iff, h.extract_eq_error_iff]
  constructor
  · rintro (hprofiles | ⟨hprofiles, hscripts⟩)
    · obtain ⟨text, htext⟩ := exists_error_of_overlaid h.active hprofiles
      exact absurd (readAlone_active_eq_error htext) (by decide)
    · exact ⟨hprofiles, _, hscripts⟩
  · rintro ⟨hprofiles, e, he⟩
    obtain ⟨text, htext⟩ := exists_error_of_overlaid h.scriptDir he
    obtain rfl := readAlone_dir_eq_error htext
    exact .inr ⟨hprofiles, he⟩

/-- Each variable that is set gives its key and nothing else, each key whose variable is not set is
as in the file, and a failure tells the key whose variable names nothing, that of the vendor first.
A plain text is taken over as it is, and a vendor is named by a text that begins with no quote if it
is the vendor's name but for case and white space around it. -/
theorem extract_exact {members : List (String × Node)} (hordered : (Node.record members).Ordered)
    (hfile : extract (.record members) [] = .ok s₀) (vars : List (String × String)) :
    let file := Node.record members
    extract file
      (vars.filter fun setting =>
        isNamed activeVariable setting.1 || isNamed dirVariable setting.1) =
        extract file vars ∧
      (∀ s, extract file vars = .ok s ↔
        Given (setting? activeVariable vars) s₀.active NamesVendor s.active ∧
          Given (setting? dirVariable vars) s₀.scriptDir NamesDir s.scriptDir) ∧
      ((∃ s, extract file vars = .ok s) ↔
        (∀ text ∈ setting? activeVariable vars, ∃ v, NamesVendor text v) ∧
        ∀ text ∈ setting? dirVariable vars, ∃ dir, NamesDir text dir) ∧
      ((extract file vars = .error (.refused ["profiles", "active"]) ∨
          extract file vars = .error (.invalidType ["profiles", "active"])) ↔
        ∃ text ∈ setting? activeVariable vars, ∀ v, ¬ NamesVendor text v) ∧
      (extract file vars = .error (.invalidType ["scripts", "dir"]) ↔
        (∀ text ∈ setting? activeVariable vars, ∃ v, NamesVendor text v) ∧
          ∃ text ∈ setting? dirVariable vars, ∀ dir, ¬ NamesDir text dir) ∧
      (∀ text, Settings.IsPlain text → NamesDir text text) ∧
      (∀ text v, (∀ c ∈ (Text.trim text.toList).head?, c ≠ '"' ∧ c ≠ '\'') →
        (NamesVendor text v ↔ Text.sameFolded v.name.toList (Text.trim text.toList) = true)) ∧
      ∀ (s : TestSettings) (v : Vendor), s.profile = v ↔
        s.active = some v ∨ s.active = none ∧ v = .sqlite := by
  intro file
  obtain ⟨profiles, scripts, h⟩ : ∃ profiles scripts, IsFile file s₀ profiles scripts :=
    exists_isFile hordered hfile
  refine ⟨?_, h.extract_eq_ok_iff, ?_, h.extract_eq_error_active_iff, h.extract_eq_error_dir_iff,
    fun text => Settings.ofText_of_isPlain, fun text v => namesVendor_iff, fun s v => ?_⟩
  · rw [extract, layered_filter, extract]
  · rw [← exists_given_iff s₀.active, ← exists_given_iff s₀.scriptDir]
    simp only [h.extract_eq_ok_iff]
    exact ⟨fun ⟨s, hactive, hdir⟩ => ⟨⟨_, hactive⟩, _, hdir⟩,
      fun ⟨⟨active, hactive⟩, dir, hdir⟩ => ⟨⟨active, dir⟩, hactive, hdir⟩⟩
  · rw [profile]
    cases s.active <;> simp [eq_comm]

theorem extract_exact_overridden :
    let text :=
      "\x7b\"profiles\":\x7b\"active\":\"db2\"\x7d,\"scripts\":\x7b\"dir\":\"sql\"\x7d\x7d"
    let vars := [("ROWKIT_LOG", "debug"), ("ROWKIT_PROFILES_ACTIVE", " Oracle ")]
    ∃ document members, Json.parse? text = some document ∧
      Node.ofDocument document = .ok (.record members) ∧ (Node.record members).Ordered ∧
      extract (.record members) [] = .ok ⟨some .db2, some "sql"⟩ ∧
      extract (.record members) vars = .ok ⟨some .oracle, some "sql"⟩ := by
  intro text vars
  have hsome : (Json.parse? text).isSome := by decide +kernel
  have hload : load (Json.parse? text) [] = .ok ⟨some .db2, some "sql"⟩ := by decide +kernel
  obtain ⟨document, hparse⟩ := Option.isSome_iff_exists.1 hsome
  rw [hparse] at hload
  obtain ⟨file, hread, hfile⟩ := bind_eq_ok_iff.1 hload
  obtain ⟨members, rfl, hordered⟩ := Node.exists_of_ofDocument hparse hread
  obtain ⟨-, hok, -, -, -, -, hvendor, -⟩ := extract_exact hordered hfile vars
  have hactive : setting? activeVariable vars = some " Oracle " := by decide +kernel
  have hdir : setting? dirVariable vars = none := by decide +kernel
  have hquote : ∀ c ∈ (Text.trim " Oracle ".toList).head?, c ≠ '"' ∧ c ≠ '\'' := by
    intro c hc
    obtain rfl : 'O' = c := Option.some.inj hc
    decide
  have hnames : NamesVendor " Oracle " .oracle := (hvendor _ _ hquote).2 (by decide +kernel)
  refine ⟨document, members, hparse, hread, hordered, hfile, (hok _).2 ?_⟩
  rw [hactive, hdir]
  exact ⟨⟨.oracle, rfl, hnames⟩, rfl⟩

/-- A number is no directory, quotes around a vendor's name are no part of it, white space around a
directory is left out, and a variable's name may be written in lower case. -/
theorem text_is_not_verbatim :
    let noFile := Node.record []
    extract noFile [("ROWKIT_SCRIPTS_DIR", "2024")] = .error (.invalidType ["scripts", "dir"]) ∧
      extract noFile [("ROWKIT_PROFILES_ACTIVE", "\"db2\"")] = .ok ⟨some .db2, none⟩ ∧
      extract noFile [("ROWKIT_SCRIPTS_DIR", " x ")] = .ok ⟨none, some "x"⟩ ∧
      extract noFile [("rowkit_scripts_dir", "x")] = .ok ⟨none, some "x"⟩ := by
  decide +kernel

end TestSettings

end QueryMapping
