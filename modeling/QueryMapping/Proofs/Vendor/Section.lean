import QueryMapping.Proofs.Settings.Node
import QueryMapping.Proofs.Vendor.Variable

/-! The two sections of a test run's settings. Each is overlaid and read on its own, whatever the
other one holds. -/

namespace QueryMapping

namespace TestSettings

variable {profiles scripts : Option Node} {key : String} {vars : List (String × String)}

def sections (profiles scripts : Option Node) : Node :=
  .record (profiles.toList.map (("profiles", ·)) ++ scripts.toList.map (("scripts", ·)))

def keyed (key : String) (node : Node) : Node := .record [(key, node)]

def HasOnly (key : String) (node : Option Node) : Prop :=
  ∃ value : Option Node, membersOf (node.getD .null) = value.toList.map ((key, ·))

theorem hasOnly_keyed (key : String) (node : Node) : HasOnly key (some (keyed key node)) :=
  ⟨some node, rfl⟩

theorem setMember_of_hasOnly {old : Option Node} (h : HasOnly key old) (node : Node) :
    setMember key node (membersOf (old.getD .null)) = [(key, node)] := by
  obtain ⟨value, hvalue⟩ := h
  rw [hvalue]
  cases value with
  | none => rfl
  | some value => exact if_pos rfl

theorem setMember_profiles (profiles scripts : Option Node) (node : Node) :
    setMember "profiles" node
      (profiles.toList.map (("profiles", ·)) ++ scripts.toList.map (("scripts", ·))) =
      ("profiles", node) :: scripts.toList.map (("scripts", ·)) := by
  cases profiles with
  | some old => exact if_pos rfl
  | none =>
    cases scripts with
    | none => rfl
    | some old => exact (if_neg (by decide)).trans (if_pos (by decide))

theorem setMember_scripts (profiles scripts : Option Node) (node : Node) :
    setMember "scripts" node
      (profiles.toList.map (("profiles", ·)) ++ scripts.toList.map (("scripts", ·))) =
      profiles.toList.map (("profiles", ·)) ++ [("scripts", node)] := by
  have hscripts :
      setMember "scripts" node (scripts.toList.map (("scripts", ·))) = [("scripts", node)] := by
    cases scripts with
    | none => rfl
    | some old => exact if_pos rfl
  cases profiles with
  | none => exact hscripts
  | some old =>
    exact (if_neg (by decide)).trans ((if_neg (by decide)).trans (congrArg (_ :: ·) hscripts))

theorem overlay_profiles (h : HasOnly "active" profiles) (scripts : Option Node) (node : Node) :
    overlay (sections profiles scripts) ("profiles", "active") node =
      sections (some (keyed "active" node)) scripts := by
  have hfind :
    (((membersOf (sections profiles scripts)).find? (·.1 = "profiles")).map Prod.snd).getD .null =
      profiles.getD .null := by
    cases profiles <;> cases scripts <;> rfl
  rw [overlay]
  dsimp only
  rw [hfind, setMember_of_hasOnly h, sections, membersOf, setMember_profiles]
  rfl

theorem overlay_scripts (h : HasOnly "dir" scripts) (profiles : Option Node) (node : Node) :
    overlay (sections profiles scripts) ("scripts", "dir") node =
      sections profiles (some (keyed "dir" node)) := by
  have hfind :
    (((membersOf (sections profiles scripts)).find? (·.1 = "scripts")).map Prod.snd).getD .null =
      scripts.getD .null := by
    cases profiles <;> cases scripts <;> rfl
  rw [overlay]
  dsimp only
  rw [hfind, setMember_of_hasOnly h, sections, membersOf, setMember_scripts]
  rfl

def overlaid (key name : String) (vars : List (String × String)) (old : Option Node) :
    Option Node :=
  ((setting? name vars).map fun text => keyed key (Settings.ofText text)).or old

theorem overlaid_cons_of_named {name : String} {setting : String × String}
    (h : isNamed name setting.1 = true)
    (old : Option Node) : overlaid key name (setting :: vars) old =
      overlaid key name vars (some (keyed key (Settings.ofText setting.2))) := by
  rw [overlaid, setting?_cons_of_named h, overlaid]
  cases setting? name vars <;> rfl

theorem overlaid_cons_of_not_named {name : String} {setting : String × String}
    (h : isNamed name setting.1 = false)
    (old : Option Node) : overlaid key name (setting :: vars) old = overlaid key name vars old := by
  rw [overlaid, setting?_cons_of_not_named h, overlaid]

theorem layered_sections (hprofiles : HasOnly "active" profiles) (hscripts : HasOnly "dir" scripts)
    (vars : List (String × String)) :
    layered (sections profiles scripts) vars =
      sections (overlaid "active" activeVariable vars profiles)
        (overlaid "dir" dirVariable vars scripts) := by
  induction vars generalizing profiles scripts with
  | nil => rfl
  | cons setting vars ih =>
    rw [layered_cons]
    cases hactive : isNamed activeVariable setting.1 with
    | true =>
      rw [if_pos rfl, overlay_profiles hprofiles, ih (hasOnly_keyed _ _) hscripts,
        overlaid_cons_of_named hactive, overlaid_cons_of_not_named (isNamed_dir_of_active hactive)]
    | false =>
      rw [if_neg Bool.false_ne_true, overlaid_cons_of_not_named hactive]
      cases hdir : isNamed dirVariable setting.1 with
      | true =>
        rw [if_pos rfl, overlay_scripts hscripts, ih hprofiles (hasOnly_keyed _ _),
          overlaid_cons_of_named hdir]
      | false =>
        rw [if_neg Bool.false_ne_true, ih hprofiles hscripts, overlaid_cons_of_not_named hdir]

/-! ### Reading the sections -/

/-- What a section gives on its own. -/
def readAlone (name : String) (part : Option Node) : Except SettingsError TestSettings :=
  part.elim (.ok ⟨none, none⟩) (Node.at? name (readSection ⟨none, none⟩ name))

theorem readSection_profiles_keeps (scriptDir : Option String) (node : Node) (s : TestSettings) :
    readSection { s with scriptDir } "profiles" node =
      (readSection s "profiles" node).map fun s => { s with scriptDir } := by
  refine Node.allFields?_map (f := fun s : TestSettings => { s with scriptDir })
    (fun s name node => ?_) s node
  unfold readProfiles
  split
  · dsimp only
    cases Node.optional? vendor? node <;> rfl
  · rfl

theorem readSection_scripts_keeps (active : Option Vendor) (node : Node) (s : TestSettings) :
    readSection { s with active } "scripts" node =
      (readSection s "scripts" node).map fun s => { s with active } := by
  refine Node.allFields?_map (f := fun s : TestSettings => { s with active })
    (fun s name node => ?_) s node
  unfold readScripts
  split
  · dsimp only
    cases Node.optional? Node.text? node <;> rfl
  · rfl

theorem scriptDir_of_readAlone {s : TestSettings} (h : readAlone "profiles" profiles = .ok s) :
    s.scriptDir = none := by
  cases profiles with
  | none =>
    obtain rfl := Except.ok.inj h
    rfl
  | some node =>
    have hkeeps := Node.at?_map "profiles" (readSection_profiles_keeps none node ⟨none, none⟩)
    obtain ⟨s', -, rfl⟩ := map_eq_ok_iff.1 (hkeeps.symm.trans h)
    rfl

theorem ofNode_sections (profiles scripts : Option Node) :
    ofNode (sections profiles scripts) = do
      let s ← readAlone "profiles" profiles
      let t ← readAlone "scripts" scripts
      return ⟨s.active, t.scriptDir⟩ := by
  let step (s : TestSettings) (member : String × Node) :=
    Node.at? member.1 (readSection s member.1) member.2
  have hsplit : ofNode (sections profiles scripts) =
      (profiles.toList.map (("profiles", ·))).foldlM step ⟨none, none⟩ >>=
        (scripts.toList.map (("scripts", ·))).foldlM step := List.foldlM_append
  have hprofiles : (profiles.toList.map (("profiles", ·))).foldlM step ⟨none, none⟩ =
      readAlone "profiles" profiles := by
    cases profiles with
    | none => rfl
    | some node => exact bind_pure _
  rw [hsplit, hprofiles]
  cases hread : readAlone "profiles" profiles with
  | error e => rfl
  | ok s =>
    have hs : s = { (⟨none, none⟩ : TestSettings) with active := s.active } := by
      rw [← scriptDir_of_readAlone hread]
    change (scripts.toList.map (("scripts", ·))).foldlM step s = readAlone "scripts" scripts >>= _
    rw [hs]
    cases scripts with
    | none => rfl
    | some node =>
      refine (bind_pure _).trans
        ((Node.at?_map "scripts" (readSection_scripts_keeps s.active node _)).trans ?_)
      change Except.map _ (readAlone "scripts" (some node)) = _
      cases readAlone "scripts" (some node) <;> rfl

theorem readAlone_keyed {α : Type} {names : List String}
    {step : TestSettings → String → Node.Reader TestSettings}
    {part : String} {read : Node.Reader α} {set : α → TestSettings}
    (hpart : readSection ⟨none, none⟩ part = Node.allFields? names step ⟨none, none⟩)
    (hstep : step ⟨none, none⟩ key node = (read node).map set) :
    readAlone part (some (keyed key node)) =
      ((read node).mapError (·.mapPath ([part, key] ++ ·))).map set := by
  change Node.at? part (readSection ⟨none, none⟩ part) (.record [(key, node)]) = _
  rw [Node.at?, hpart, Node.allFields?_singleton, Node.at?, hstep]
  cases read node with
  | ok a => rfl
  | error e => cases e <;> rfl

theorem readAlone_profiles_keyed (node : Node) :
    readAlone "profiles" (some (keyed "active" node)) =
      ((Node.optional? vendor? node).mapError (·.mapPath (["profiles", "active"] ++ ·))).map
        fun v => ⟨v, none⟩ := by
  refine readAlone_keyed rfl ?_
  rw [readProfiles]
  cases Node.optional? vendor? node <;> rfl

theorem readAlone_scripts_keyed (node : Node) :
    readAlone "scripts" (some (keyed "dir" node)) =
      ((Node.optional? Node.text? node).mapError (·.mapPath (["scripts", "dir"] ++ ·))).map fun d =>
        ⟨none, d⟩ := by
  refine readAlone_keyed rfl ?_
  rw [readScripts]
  cases Node.optional? Node.text? node <;> rfl

end TestSettings

end QueryMapping
