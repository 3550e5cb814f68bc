import Mathlib.Data.String.Basic
import QueryMapping.Proofs.Json.Convert

/-! The objects of a document that has been read have each of their keys once, in ascending
order. -/

namespace QueryMapping

def Ascending {α : Type} (members : List (String × α)) : Prop :=
  (members.map Prod.fst).Pairwise (· < ·)

namespace Json

namespace Tree

inductive Ordered : Tree → Prop
  | null : Ordered .null
  | bool (b : Bool) : Ordered (.bool b)
  | number (n : Number) : Ordered (.number n)
  | string (s : String) : Ordered (.string s)
  | array {items : List Tree} (hitems : ∀ t ∈ items, Ordered t) : Ordered (.array items)
  | object {members : List (String × Tree)} (hkeys : Ascending members)
      (hmembers : ∀ m ∈ members, Ordered m.2) : Ordered (.object members)

variable {key : String} {t : Tree} {m : String × Tree} {members : List (String × Tree)}

theorem mem_insertMember (h : m ∈ insertMember key t members) : m = (key, t) ∨ m ∈ members := by
  induction members with
  | nil => exact .inl (List.mem_singleton.1 h)
  | cons first rest ih =>
    obtain ⟨k, u⟩ := first
    rw [insertMember] at h
    split at h
    · exact (List.mem_cons.1 h).imp_right fun h => .tail _ h
    · split at h
      · exact List.mem_cons.1 h
      · rcases List.mem_cons.1 h with rfl | h
        · exact .inr (.head _)
        · exact (ih h).imp_right fun h => .tail _ h

theorem ascending_insertMember (h : Ascending members) :
    Ascending (insertMember key t members) := by
  induction members with
  | nil => exact List.pairwise_singleton _ _
  | cons first rest ih =>
    obtain ⟨k, u⟩ := first
    obtain ⟨hfirst, hrest⟩ := List.pairwise_cons.1 h
    rw [insertMember]
    split
    · next heq =>
      subst heq
      exact h
    · next hne =>
      split
      · next hlt =>
        refine List.pairwise_cons.2 ⟨fun k' hk' => ?_, h⟩
        rcases List.mem_cons.1 hk' with rfl | hk'
        · exact hlt
        · exact hlt.trans (hfirst k' hk')
      · next hle =>
        refine List.pairwise_cons.2 ⟨fun k' hk' => ?_, ih hrest⟩
        obtain ⟨m, hm, rfl⟩ := List.mem_map.1 hk'
        rcases mem_insertMember hm with rfl | hm
        · exact lt_of_le_of_ne (not_lt.1 hle) (Ne.symm hne)
        · exact hfirst _ (List.mem_map_of_mem hm)

theorem Ordered.insertMember (h : Ordered (.object members)) (ht : t.Ordered) :
    Ordered (.object (insertMember key t members)) := by
  cases h with
  | object hkeys hmembers =>
    refine .object (ascending_insertMember hkeys) fun m hm => ?_
    rcases mem_insertMember hm with rfl | hm
    · exact ht
    · exact hmembers m hm

end Tree

def Frame.Ordered : Frame → Prop
  | .array items => ∀ t ∈ items, t.Ordered
  | .object members | .member members _ => (Tree.object members).Ordered
  | .embedding => True
  | .embedded document => document.Ordered

namespace Building

structure Ordered (b : Building) : Prop where
  frames : ∀ frame ∈ b.frames, frame.Ordered
  done : ∀ t, b.next = .done t → t.Ordered

variable {read : String → Option Tree} {frames : List Frame} {t : Token} {b b' : Building}
    {tree : Tree}

theorem ordered_of_frames {next : Awaiting} (hframes : ∀ frame ∈ frames, frame.Ordered)
    (hnext : ∀ tree, next ≠ .done tree) : Ordered ⟨frames, next⟩ :=
  ⟨hframes, fun tree h => absurd h (hnext tree)⟩

theorem ordered_start : start.Ordered := ordered_of_frames (List.forall_mem_nil _) nofun

theorem ordered_of_deliver? (hframes : ∀ frame ∈ frames, frame.Ordered) (htree : tree.Ordered)
    (h : deliver? frames tree = some b) : b.Ordered := by
  cases frames with
  | nil =>
    cases h
    exact ⟨List.forall_mem_nil _, fun t ht => Awaiting.done.inj ht ▸ htree⟩
  | cons frame outer =>
    obtain ⟨hframe, houter⟩ := List.forall_mem_cons.1 hframes
    cases frame with
    | array items =>
      cases h
      exact ordered_of_frames
        (List.forall_mem_cons.2 ⟨List.forall_mem_cons.2 ⟨htree, hframe⟩, houter⟩) nofun
    | member members key =>
      cases h
      exact ordered_of_frames
        (List.forall_mem_cons.2 ⟨Tree.Ordered.insertMember hframe htree, houter⟩) nofun
    | object | embedding | embedded => cases h

theorem ordered_of_close? (hframes : ∀ frame ∈ frames, frame.Ordered) (h : close? frames = some b) :
    b.Ordered := by
  cases frames with
  | nil => cases h
  | cons frame outer =>
    obtain ⟨hframe, houter⟩ := List.forall_mem_cons.1 hframes
    cases frame with
    | array items =>
      exact ordered_of_deliver? houter (.array fun t ht => hframe t (List.mem_reverse.1 ht)) h
    | object members | embedded document => exact ordered_of_deliver? houter hframe h
    | member members key | embedding => cases h

theorem ordered_of_value? (hread : ∀ s t, read s = some t → t.Ordered)
    (hframes : ∀ frame ∈ frames, frame.Ordered)
    (h : value? read frames t = some b) : b.Ordered := by
  cases t with
  | openArray =>
    rw [eq_of_open? h]
    exact ordered_of_frames (List.forall_mem_cons.2 ⟨List.forall_mem_nil _, hframes⟩) nofun
  | openObject =>
    rw [eq_of_open? h]
    exact ordered_of_frames
      (List.forall_mem_cons.2 ⟨.object .nil (List.forall_mem_nil _), hframes⟩) nofun
  | null => exact ordered_of_deliver? hframes .null h
  | bool x => exact ordered_of_deliver? hframes (.bool x) h
  | number n =>
    obtain ⟨x, -, h⟩ := Option.bind_eq_some_iff.1 h
    exact ordered_of_deliver? hframes (.number x) h
  | string parts =>
    obtain ⟨s, -, h⟩ := Option.bind_eq_some_iff.1 h
    unfold string? at h
    split at h
    · obtain ⟨document, hdocument, rfl⟩ := Option.map_eq_some_iff.1 h
      obtain ⟨-, houter⟩ := List.forall_mem_cons.1 hframes
      exact ordered_of_frames (List.forall_mem_cons.2 ⟨hread s document hdocument, houter⟩) nofun
    · exact ordered_of_deliver? hframes (.string s) h
  | closeArray | closeObject | comma | colon => cases h

theorem ordered_of_key? (hframes : ∀ frame ∈ frames, frame.Ordered) (h : key? frames t = some b) :
    b.Ordered := by
  obtain ⟨members, outer, parts, key, rfl, rfl, rfl⟩ := eq_of_key? h
  obtain ⟨hobject, houter⟩ := List.forall_mem_cons.1 hframes
  exact ordered_of_frames (List.forall_mem_cons.2 ⟨hobject, houter⟩) nofun

theorem ordered_of_firstKey? (hframes : ∀ frame ∈ frames, frame.Ordered)
    (h : firstKey? frames t = some b) :
    b.Ordered := by
  obtain ⟨b', hkey, rfl⟩ := Option.map_eq_some_iff.1 h
  have hordered := ordered_of_key? hframes hkey
  obtain ⟨members, outer, parts, key, rfl, rfl, rfl⟩ := eq_of_key? hkey
  dsimp only
  split
  · exact ordered_of_frames
      (List.forall_mem_cons.2 ⟨trivial, (List.forall_mem_cons.1 hframes).2⟩) nofun
  · exact hordered

theorem ordered_step (hread : ∀ s t, read s = some t → t.Ordered) (hb : b.Ordered)
    (h : step? read b t = some b') :
    b'.Ordered := by
  obtain ⟨frames, next⟩ := b
  have hframes : ∀ frame ∈ frames, frame.Ordered := hb.frames
  cases next with
  | value => exact ordered_of_value? hread hframes h
  | element =>
    change (if t = .closeArray then close? frames else value? read frames t) = some b' at h
    split at h
    · exact ordered_of_close? hframes h
    · exact ordered_of_value? hread hframes h
  | member =>
    change (if t = .closeObject then close? frames else firstKey? frames t) = some b' at h
    split at h
    · exact ordered_of_close? hframes h
    · exact ordered_of_firstKey? hframes h
  | key => exact ordered_of_key? hframes h
  | colon =>
    change (if t = .colon then some (⟨frames, .value⟩ : Building) else none) = some b' at h
    split at h
    · cases h
      exact ordered_of_frames hframes nofun
    · cases h
  | separator =>
    unfold step? at h
    dsimp only at h
    split at h
    · cases h
      exact ordered_of_frames hframes nofun
    · exact ordered_of_close? hframes h
    · cases h
      exact ordered_of_frames hframes nofun
    · exact ordered_of_close? hframes h
    · exact ordered_of_close? hframes h
    · cases h
  | done tree => cases h

theorem ordered_foldlM (hread : ∀ s t, read s = some t → t.Ordered) {ts : List Token}
    (hb : b.Ordered) (h : ts.foldlM (step? read) b = some b') : b'.Ordered := by
  induction ts generalizing b with
  | nil =>
    cases h
    exact hb
  | cons t ts ih =>
    rw [List.foldlM_cons] at h
    obtain ⟨b₁, hstep, hrun⟩ := Option.bind_eq_some_iff.1 h
    exact ih (ordered_step hread hb hstep) hrun

end Building

theorem ordered_of_parseWithin? {fuel : Nat} {text : String} {tree : Tree}
    (h : parseWithin? fuel text = some tree) :
    tree.Ordered := by
  induction fuel generalizing text tree with
  | zero => cases h
  | succ fuel ih =>
    obtain ⟨ts, -, h⟩ := Option.bind_eq_some_iff.1 h
    obtain ⟨b, hrun, hresult⟩ := Option.bind_eq_some_iff.1 h
    have hordered : b.Ordered := Building.ordered_foldlM (fun _ _ => ih) Building.ordered_start hrun
    obtain ⟨frames, next⟩ := b
    cases next with
    | done t => exact hordered.done _ (congrArg Awaiting.done (Option.some.inj hresult))
    | value | element | member | key | colon | separator => cases hresult

theorem ordered_of_parse? {text : String} {tree : Tree} (h : parse? text = some tree) :
    tree.Ordered :=
  ordered_of_parseWithin? h

end Json

end QueryMapping
