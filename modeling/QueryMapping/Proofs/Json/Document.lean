import Mathlib.Data.List.DropRight
import QueryMapping.Json.Holder
import QueryMapping.Proofs.Database.Prepare
import QueryMapping.Relational.Datum

/-! JSON documents on their way into a column and back. The white space around a document does not
reach the database; everything else does, and comes back as it was sent. -/

namespace QueryMapping

namespace Json

def IsBare (text : String) : Prop :=
  (∀ x, text.toList.head? = some x → isSpace x = false) ∧
    ∀ x, text.toList.getLast? = some x → isSpace x = false

theorem toList_stripped (text : String) :
    (stripped text).toList = (text.toList.dropWhile isSpace).rdropWhile isSpace :=
  String.toList_ofList

theorem exists_eq_append_stripped (text : String) :
    ∃ before after, text.toList = before ++ (stripped text).toList ++ after ∧
      ∀ x ∈ before ++ after, isSpace x = true := by
  refine ⟨text.toList.takeWhile isSpace, (text.toList.dropWhile isSpace).rtakeWhile isSpace, ?_, ?_⟩
  · rw [toList_stripped, List.append_assoc, List.rdropWhile_append_rtakeWhile,
      List.takeWhile_append_dropWhile]
  · intro x hx
    rcases List.mem_append.1 hx with hx | hx
    · exact List.mem_takeWhile_imp hx
    · exact List.mem_rtakeWhile_imp hx

theorem dropWhile_eq_self_iff_head {cs : List Char} :
    cs.dropWhile isSpace = cs ↔ ∀ x, cs.head? = some x → isSpace x = false := by
  cases cs <;> simp [List.dropWhile_eq_self_iff]

theorem rdropWhile_eq_self_iff_last {cs : List Char} :
    cs.rdropWhile isSpace = cs ↔ ∀ x, cs.getLast? = some x → isSpace x = false := by
  rw [List.rdropWhile, List.reverse_eq_iff, dropWhile_eq_self_iff_head, List.head?_reverse]

theorem stripped_eq_self_iff {text : String} : stripped text = text ↔ IsBare text := by
  rw [← String.toList_inj, toList_stripped, IsBare, ← dropWhile_eq_self_iff_head,
    ← rdropWhile_eq_self_iff_last]
  constructor
  · intro h
    have hdrop : text.toList.dropWhile isSpace = text.toList := by
      refine (List.dropWhile_suffix isSpace).eq_of_length_le ?_
      calc text.toList.length
        _ = ((text.toList.dropWhile isSpace).rdropWhile isSpace).length := by rw [h]
        _ ≤ (text.toList.dropWhile isSpace).length := (List.rdropWhile_prefix isSpace _).length_le
    exact ⟨hdrop, by rwa [hdrop] at h⟩
  · rintro ⟨hdrop, hrdrop⟩
    rw [hdrop, hrdrop]

end Json

namespace Affinity

theorem mentions_of_text {declaration : String} (h : ofDeclaration declaration = .text) :
    mentions declaration ["char", "clob", "text"] = true := by
  unfold ofDeclaration at h
  grind

end Affinity

namespace Datum

theorem ofDeclaration?_ne_boolean {declaration : String}
    (h : Affinity.ofDeclaration declaration = .text) :
    ColumnType.ofDeclaration? declaration ≠ some .boolean := by
  have hmentions := Affinity.mentions_of_text h
  unfold mentions at hmentions
  unfold ColumnType.ofDeclaration?
  split
  · next heq =>
    rw [← String.toList_inj, String.toList_ofList] at heq
    rw [heq] at hmentions
    revert hmentions
    decide
  · next heq =>
    rw [← String.toList_inj, String.toList_ofList] at heq
    rw [heq] at hmentions
    revert hmentions
    decide
  all_goals grind

theorem decode_stored_text {declaration : String} (h : Affinity.ofDeclaration declaration = .text)
    (s : String) :
    decode (ColumnType.ofDeclaration? declaration)
      (stored (Affinity.ofDeclaration declaration) (.text s)) = .text s := by
  have hne := ofDeclaration?_ne_boolean h
  rw [h]
  change decode (ColumnType.ofDeclaration? declaration) (.text s) = .text s
  generalize ColumnType.ofDeclaration? declaration = type? at hne
  rcases type? with _ | (_ | _ | _ | _ | _ | _ | _ | _)
  case some.boolean => exact absurd rfl hne
  all_goals rfl

end Datum

namespace NamedSql

theorem Supplied.getElem?_of_bind {sql : NamedSql} {params : Params} {name : String} {v : Value}
    {values : List Value} (h : sql.Supplied (params.bind name v) values) {i : Nat}
    (hi : sql.names[i]? = some name) : values[i]? = some v := by
  have hne : sql.names ≠ [] := by
    intro hnil
    rw [hnil] at hi
    cases hi
  rw [Supplied, if_neg hne] at h
  obtain ⟨hlength, hget⟩ := List.forall₂_iff_get.1 h
  obtain ⟨hlt, hname⟩ := List.getElem?_eq_some_iff.1 hi
  have hbound := hget i hlt (hlength ▸ hlt)
  rw [List.get_eq_getElem, hname] at hbound
  rw [List.getElem?_eq_getElem (hlength ▸ hlt)]
  exact hbound.symm.trans (Table.get?_set_self _ _ _)

end NamedSql

namespace JsonHolder

variable {columnType c : String} {v : Value}

theorem writeBy_eq_ok_iff {D : Type} {l : JsonLibrary D} {holder : JsonHolder} :
    writeBy l columnType holder = .ok v ↔
      l.isValid holder.content = true ∧ v = .typed ⟨columnType, some holder.content⟩ := by
  unfold writeBy
  split
  · next h => simp [h, eq_comm]
  · next h => simp [h]

theorem write_eq_ok_iff :
    write columnType ⟨c⟩ = .ok v ↔ Json.isValid c = true ∧ v = .typed ⟨columnType, some c⟩ :=
  writeBy_eq_ok_iff

theorem isJson_of_name (h : columnType = "json" ∨ columnType = "jsonb") (text : Option String) :
    TypedValue.isJson ⟨columnType, text⟩ = true := by
  rcases h with rfl | rfl <;> simp [TypedValue.isJson, Text.sameFolded]

theorem isBinary_of_name (h : columnType = "json" ∨ columnType = "jsonb") (text : Option String) :
    TypedValue.isBinary ⟨columnType, text⟩ = decide (columnType = "jsonb") := by
  rcases h with rfl | rfl <;> simp [TypedValue.isBinary, Text.sameFolded]

theorem argument_of_write (hcolumn : columnType = "json" ∨ columnType = "jsonb")
    (h : write columnType ⟨c⟩ = .ok v) :
    v.argument = .document (columnType = "jsonb") (Json.stripped c) := by
  obtain ⟨-, rfl⟩ := write_eq_ok_iff.1 h
  rw [Value.argument, if_pos (isJson_of_name hcolumn _), isBinary_of_name hcolumn]

theorem bindable_of_write (h : write columnType ⟨c⟩ = .ok v) : v.Bindable := by
  obtain ⟨hvalid, rfl⟩ := write_eq_ok_iff.1 h
  intro t text ht htext _
  obtain rfl := Value.typed.inj ht
  obtain rfl := Option.some.inj htext
  exact hvalid

/-- Whatever document a writer accepts, what is sent for it under each of its parameter's names, and
what a column of text gives back, is the document without the white space around it. It is the text
that was written just if that neither begins nor ends with white space. -/
theorem sent_stripped (hcolumn : columnType = "json" ∨ columnType = "jsonb")
    (hwrite : write columnType ⟨c⟩ = .ok v) :
    let sent : Argument := .document (columnType = "jsonb") (Json.stripped c)
    boundValue v = .ok sent ∧
      (∀ e sql (params : Params) name st, prepare e sql (params.bind name v) = .ok st →
        ∀ i : Nat, (NamedSql.parse sql).names[i]? = some name → st.arguments[i]? = some sent) ∧
      (∀ declaration, Affinity.ofDeclaration declaration = .text →
        read (Datum.decode (ColumnType.ofDeclaration? declaration)
          (Datum.stored (Affinity.ofDeclaration declaration) (Datum.ofArgument sent))) =
            .ok ⟨Json.stripped c⟩) ∧
      (∃ before after, c.toList = before ++ (Json.stripped c).toList ++ after ∧
        ∀ x ∈ before ++ after, Json.isSpace x = true) ∧
      (Json.stripped c = c ↔ Json.IsBare c) := by
  intro sent
  have hsent : v.argument = sent := argument_of_write hcolumn hwrite
  refine ⟨?_, ?_, ?_, Json.exists_eq_append_stripped c, Json.stripped_eq_self_iff⟩
  · rw [boundValue_of_bindable (bindable_of_write hwrite), hsent]
  · intro e sql params name st hst i hi
    obtain ⟨hvalues, -⟩ := prepare_eq_ok_iff.1 hst
    rw [List.getElem?_map, hvalues.getElem?_of_bind hi, Option.map_some, hsent]
  · intro declaration h
    have hstored : Datum.ofArgument sent = .text (Json.stripped c) := rfl
    rw [hstored, Datum.decode_stored_text h, read]

theorem sent_stripped_padded :
    write "jsonb" ⟨"\t[1,  2] "⟩ = .ok (.typed ⟨"jsonb", some "\t[1,  2] "⟩) ∧
      boundValue (.typed ⟨"jsonb", some "\t[1,  2] "⟩) =
        .ok (.document true (Json.stripped "\t[1,  2] ")) := by
  have hwrite : write "jsonb" ⟨"\t[1,  2] "⟩ = .ok (.typed ⟨"jsonb", some "\t[1,  2] "⟩) := by
    decide +kernel
  exact ⟨hwrite, (sent_stripped (.inr rfl) hwrite).1⟩

/-- A document with a blank before it is accepted as it is, but sent without the blank. -/
theorem space_is_lost :
    write "json" ⟨" {}"⟩ = .ok (.typed ⟨"json", some " {}"⟩) ∧
      boundValue (.typed ⟨"json", some " {}"⟩) = .ok (.document false "{}") ∧
      boundValue (.typed ⟨"json", some " {}"⟩) ≠ .ok (.document false " {}") := by
  decide +kernel

end JsonHolder

end QueryMapping
