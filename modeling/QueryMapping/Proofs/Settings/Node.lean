import QueryMapping.Proofs.Failure
import QueryMapping.Proofs.Json.Order
import QueryMapping.Settings.Document

/-! Trees of settings: what reading a record looks at, and the order of the keys in a tree that a
document gives. -/

namespace QueryMapping

namespace Node

variable {α : Type} {names : List String} {step : α → String → Reader α} {f : α → α}

theorem at?_map (key : String) {read read' : Reader α} {node : Node}
    (h : read' node = (read node).map f) :
    at? key read' node = (at? key read node).map f := by
  rw [at?, h, at?]
  cases read node <;> rfl

theorem fields?_map (h : ∀ a name node, step (f a) name node = (step a name node).map f) (a : α)
    (node : Node) :
    fields? names step (f a) node = (fields? names step a node).map f := by
  cases node with
  | record members =>
    exact foldlM_map (fun a member => at?_map member.1 (h a member.1 member.2)) members a
  | list items => exact foldlM_map (fun a entry => at?_map _ (h a entry.1.1 entry.1.2)) _ a
  | _ => rfl

theorem allFields?_map (h : ∀ a name node, step (f a) name node = (step a name node).map f) (a : α)
    (node : Node) :
    allFields? names step (f a) node = (allFields? names step a node).map f := by
  rw [allFields?, fields?_map h, allFields?]
  cases fields? names step a node with
  | error e => rfl
  | ok a' =>
    cases node with
    | list items =>
      dsimp only [bind, Except.bind, Except.map]
      split <;> rfl
    | _ => rfl

theorem allFields?_singleton (a : α) (key : String) (node : Node) :
    allFields? names step a (.record [(key, node)]) = at? key (step a key) node := by
  change (at? key (step a key) node >>= pure) >>= pure = _
  rw [bind_pure, bind_pure]

theorem optional?_of_ne_null {β : Type} (read : Reader β) {node : Node} (h : node ≠ .null) :
    optional? read node = (read node).map some := by
  cases node with
  | null => exact absurd rfl h
  | _ => rfl

theorem exists_of_fields?_eq_ok {members : List (String × Node)} {a b : α}
    (h : fields? names step a (.record members) = .ok b) :
    ∀ m ∈ members, ∃ c c', step c m.1 m.2 = .ok c' := by
  intro m hm
  obtain ⟨c, c', hstep⟩ := exists_of_foldlM_eq_ok h m hm
  exact ⟨c, c', mapError_eq_ok_iff.1 hstep⟩

/-! ### The order of keys -/

inductive Ordered : Node → Prop
  | null : Ordered .null
  | bool (b : Bool) : Ordered (.bool b)
  | int (n : Int) : Ordered (.int n)
  | float : Ordered .float
  | text (s : String) : Ordered (.text s)
  | list {items : List Node} (hitems : ∀ node ∈ items, Ordered node) : Ordered (.list items)
  | record {members : List (String × Node)} (hkeys : Ascending members)
      (hmembers : ∀ m ∈ members, Ordered m.2) : Ordered (.record members)

theorem exists_of_itemsInFile? {ts : List Json.Tree} {items : List Node}
    (h : itemsInFile? (ofTrees ts) = some items) :
    ∀ item ∈ items, ∃ t ∈ ts, inFile? (ofTree t) = some item := by
  induction ts generalizing items with
  | nil =>
    rw [ofTrees, itemsInFile?] at h
    obtain rfl := Option.some.inj h
    exact List.forall_mem_nil _
  | cons t ts ih =>
    rw [ofTrees, itemsInFile?] at h
    obtain ⟨item, hitem, h⟩ := Option.bind_eq_some_iff.1 h
    obtain ⟨rest, hrest, h⟩ := Option.bind_eq_some_iff.1 h
    obtain rfl := Option.some.inj h
    refine List.forall_mem_cons.2 ⟨⟨t, .head _, hitem⟩, fun node hnode => ?_⟩
    obtain ⟨u, hu, hread⟩ := ih hrest node hnode
    exact ⟨u, .tail _ hu, hread⟩

theorem keys_of_membersInFile? {ms : List (String × Json.Tree)} {members : List (String × Node)}
    (h : membersInFile? (ofMembers ms) = some members) :
    members.map Prod.fst = ms.map Prod.fst ∧
      ∀ member ∈ members, ∃ m ∈ ms, inFile? (ofTree m.2) = some member.2 := by
  induction ms generalizing members with
  | nil =>
    rw [ofMembers, membersInFile?] at h
    obtain rfl := Option.some.inj h
    exact ⟨rfl, List.forall_mem_nil _⟩
  | cons m ms ih =>
    obtain ⟨key, t⟩ := m
    rw [ofMembers, membersInFile?] at h
    split at h
    · cases h
    · obtain ⟨node, hnode, h⟩ := Option.bind_eq_some_iff.1 h
      obtain ⟨rest, hrest, h⟩ := Option.bind_eq_some_iff.1 h
      obtain rfl := Option.some.inj h
      obtain ⟨hkeys, hnodes⟩ := ih hrest
      refine ⟨congrArg (key :: ·) hkeys,
        List.forall_mem_cons.2 ⟨⟨(key, t), .head _, hnode⟩, fun member hmember => ?_⟩⟩
      obtain ⟨m, hm, hread⟩ := hnodes member hmember
      exact ⟨m, .tail _ hm, hread⟩

theorem ordered_of_inFile? {t : Json.Tree} {node : Node} (ht : t.Ordered)
    (h : inFile? (ofTree t) = some node) : node.Ordered := by
  induction ht generalizing node with
  | null =>
    obtain rfl := Option.some.inj h
    exact .null
  | bool b =>
    obtain rfl := Option.some.inj h
    exact .bool b
  | number n =>
    cases n with
    | int n =>
      obtain rfl := Option.some.inj h
      exact .int n
    | float x =>
      obtain rfl := Option.some.inj h
      exact .float
  | string s =>
    obtain ⟨text, -, rfl⟩ := Option.map_eq_some_iff.1 h
    exact .text text
  | array hts ih =>
    rw [ofTree, inFile?] at h
    obtain ⟨items, hitems, rfl⟩ := Option.map_eq_some_iff.1 h
    refine .list fun item hitem => ?_
    obtain ⟨u, hu, hread⟩ := exists_of_itemsInFile? hitems item hitem
    exact ih u hu hread
  | object hkeys hms ih =>
    rw [ofTree, inFile?] at h
    obtain ⟨members, hmembers, rfl⟩ := Option.map_eq_some_iff.1 h
    obtain ⟨hsame, hnodes⟩ := keys_of_membersInFile? hmembers
    refine .record (by rwa [Ascending, hsame]) fun member hmember => ?_
    obtain ⟨m, hm, hread⟩ := hnodes member hmember
    exact ih m hm hread

/-- A file that holds a document gives a record, which is in order. -/
theorem exists_of_ofDocument {text : String} {t : Json.Tree} {node : Node}
    (ht : Json.parse? text = some t) (h : ofDocument t = .ok node) :
    ∃ members, node = .record members ∧ (Node.record members).Ordered := by
  unfold ofDocument at h
  split at h
  · next members hread =>
    exact ⟨members, (Except.ok.inj h).symm, ordered_of_inFile? (Json.ordered_of_parse? ht) hread⟩
  · cases h

end Node

end QueryMapping
