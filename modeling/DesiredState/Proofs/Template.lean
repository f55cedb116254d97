import DesiredState.Template
import DesiredState.Proofs.Lineage
import DesiredState.Proofs.Text.Percent
import Mathlib.Data.List.TakeWhile

/-!
# What a template is resolved by

Of the ancestors, a template asks only for what its placeholders stand for
(`Template.resolve_congr`): lineages in which each of them stands for the same resolve it to
the same path.

**No placeholder comes from a value.** A value is percent-encoded before it is put in, so it has
no brace, and the placeholders that are left after an ancestor has been filled in were there
before (`placeholders_fillPlaceholders`).
-/

set_option autoImplicit false

namespace DesiredState

/-! ## Values have no braces -/

theorem Text.Percent.brace_not_mem_encode (text : String) : '\x7b' ∉ (encode text).toList := by
  intro member
  rcases mem_encode member with unreserved | percent
  · exact absurd unreserved (by decide)
  · exact absurd percent (by decide)

namespace Template

/-- What is put in for a value has no brace. -/
theorem brace_not_mem_render {value : Json} {shown : List Char}
    (rendered : render? value = some shown) : '\x7b' ∉ shown := by
  obtain ⟨text, _, rfl⟩ := Option.map_eq_some_iff.mp rendered
  exact Text.Percent.brace_not_mem_encode text

theorem brace_not_mem_ancestorValue {type : List Char} {fields : NameMap Json}
    {placeholder shown : List Char} (known : ancestorValue? type fields placeholder = some shown) :
    '\x7b' ∉ shown := by
  unfold ancestorValue? at known
  split at known
  · cases known
  · split at known
    · obtain ⟨value, _, rendered⟩ := Option.bind_eq_some_iff.mp known
      exact brace_not_mem_render rendered
    · cases known

/-! ## Delimiters -/

section Delimiters

variable {delimiter : Char} {inside : List Char}

theorem forall_ne_of_not_mem (free : delimiter ∉ inside) :
    ∀ character ∈ inside, (character != delimiter) = true := by
  intro character member
  rw [bne_iff_ne]
  rintro rfl
  exact free member

/-- What stands before the first delimiter. -/
theorem takeWhile_delimited (free : delimiter ∉ inside) (rest : List Char) :
    (inside ++ delimiter :: rest).takeWhile (· != delimiter) = inside := by
  rw [List.takeWhile_append_of_pos (forall_ne_of_not_mem free)]
  simp

/-- The first delimiter with what follows it. -/
theorem dropWhile_delimited (free : delimiter ∉ inside) (rest : List Char) :
    (inside ++ delimiter :: rest).dropWhile (· != delimiter) = delimiter :: rest := by
  rw [List.dropWhile_append_of_pos (forall_ne_of_not_mem free)]
  simp

/-- A text with a delimiter is cut at the first one. -/
theorem dropWhile_eq_cons {text : List Char} {character : Char} {rest : List Char}
    (cut : text.dropWhile (· != delimiter) = character :: rest) :
    character = delimiter ∧ delimiter ∉ text.takeWhile (· != delimiter) ∧
      text = text.takeWhile (· != delimiter) ++ delimiter :: rest := by
  have stops : (character != delimiter) = false := by
    have := List.head?_dropWhile_not (· != delimiter) text
    simpa [cut] using this
  obtain rfl : character = delimiter := by simpa using stops
  refine ⟨rfl, ?_, ?_⟩
  · intro member
    exact absurd (List.all_eq_true.mp List.all_takeWhile _ member) (by simp)
  · rw [← cut, List.takeWhile_append_dropWhile]

end Delimiters

/-! ## Placeholders -/

/-- What stands in the placeholders of a text. -/
def placeholders : List Char → List (List Char)
  | [] => []
  | '\x7b' :: rest =>
      match _closed : rest.dropWhile (· != '\x7d') with
      | [] => []
      | _ :: after => rest.takeWhile (· != '\x7d') :: placeholders after
  | _ :: rest => placeholders rest
termination_by text => text.length
decreasing_by
  · have suffix := (List.dropWhile_suffix (l := rest) (· != '\x7d')).length_le
    rw [_closed] at suffix
    simp only [List.length_cons] at suffix ⊢
    omega
  · simp

/-- A text without braces in front has no placeholders. -/
theorem placeholders_append {text : List Char} (plain : '\x7b' ∉ text) (rest : List Char) :
    placeholders (text ++ rest) = placeholders rest := by
  induction text with
  | nil => rfl
  | cons character text ih =>
      obtain ⟨other, later⟩ := not_or.mp fun here => plain (List.mem_cons.mpr here)
      rw [List.cons_append, placeholders]
      · exact ih later
      · rintro rfl
        exact other rfl

/-- An opened placeholder with the closing brace that ends it. -/
theorem placeholders_closed {rest after : List Char} {brace : Char}
    (closed : rest.dropWhile (· != '\x7d') = brace :: after) :
    placeholders ('\x7b' :: rest) = rest.takeWhile (· != '\x7d') :: placeholders after := by
  rw [placeholders]
  split
  · rename_i unclosed
    nomatch closed.symm.trans unclosed
  · rename_i again
    obtain ⟨_, rfl⟩ := List.cons.inj (closed.symm.trans again)
    rfl

/-- A placeholder up to its closing brace. -/
theorem placeholder_append (content rest : List Char) :
    placeholder content ++ rest = '\x7b' :: (content ++ '\x7d' :: rest) := by
  simp [placeholder]

/-- A placeholder in front is the first one. -/
theorem placeholders_placeholder {content : List Char} (inside : '\x7d' ∉ content)
    (rest : List Char) :
    placeholders (placeholder content ++ rest) = content :: placeholders rest := by
  rw [placeholder_append, placeholders_closed (dropWhile_delimited inside rest),
    takeWhile_delimited inside]

section Filling

variable {value? other? : List Char → Option (List Char)}

theorem fillPlaceholders_unclosed {rest : List Char}
    (unclosed : rest.dropWhile (· != '\x7d') = []) :
    fillPlaceholders value? ('\x7b' :: rest) = '\x7b' :: rest := by
  rw [fillPlaceholders]
  split
  · rfl
  · rename_i closed
    cases unclosed.symm.trans closed

theorem fillPlaceholders_closed {rest after : List Char} {brace : Char}
    (closed : rest.dropWhile (· != '\x7d') = brace :: after) :
    fillPlaceholders value? ('\x7b' :: rest)
      = (value? (rest.takeWhile (· != '\x7d'))).getD (placeholder (rest.takeWhile (· != '\x7d')))
        ++ fillPlaceholders value? after := by
  rw [fillPlaceholders]
  split
  · rename_i unclosed
    cases closed.symm.trans unclosed
  · rename_i again
    obtain ⟨_, rfl⟩ := List.cons.inj (closed.symm.trans again)
    rfl

theorem fillPlaceholders_cons {character : Char} (plain : character ≠ '\x7b') (rest : List Char) :
    fillPlaceholders value? (character :: rest) = character :: fillPlaceholders value? rest := by
  rw [fillPlaceholders]
  exact plain

/-- Filling in depends on what the placeholders of the text stand for. -/
theorem fillPlaceholders_congr (text : List Char)
    (same : ∀ content ∈ placeholders text, value? content = other? content) :
    fillPlaceholders value? text = fillPlaceholders other? text := by
  fun_induction placeholders text with
  | case1 => rw [fillPlaceholders, fillPlaceholders]
  | case2 rest unclosed =>
      rw [fillPlaceholders_unclosed unclosed, fillPlaceholders_unclosed unclosed]
  | case3 rest brace after closed ih =>
      obtain ⟨first, later⟩ := List.forall_mem_cons.mp same
      rw [fillPlaceholders_closed closed, fillPlaceholders_closed closed, first, ih later]
  | case4 character rest plain ih =>
      rw [fillPlaceholders_cons plain, fillPlaceholders_cons plain, ih same]

/-- **Filling in brings about no placeholder.** -/
theorem placeholders_fillPlaceholders
    (plain : ∀ content shown, value? content = some shown → '\x7b' ∉ shown) (text : List Char) :
    placeholders (fillPlaceholders value? text) ⊆ placeholders text := by
  fun_induction placeholders text with
  | case1 =>
      rw [fillPlaceholders, placeholders]
      exact List.Subset.refl _
  | case2 rest unclosed =>
      rw [fillPlaceholders_unclosed unclosed, placeholders]
      split
      · exact List.Subset.refl _
      · rename_i closed
        cases unclosed.symm.trans closed
  | case3 rest brace after closed ih =>
      rw [fillPlaceholders_closed closed]
      cases known : value? (rest.takeWhile (· != '\x7d')) with
      | some shown =>
          rw [Option.getD_some, placeholders_append (plain _ shown known)]
          exact List.subset_cons_of_subset _ ih
      | none =>
          rw [Option.getD_none, placeholders_placeholder (dropWhile_eq_cons closed).2.1]
          exact List.cons_subset_cons _ ih
  | case4 character rest other ih =>
      rw [fillPlaceholders_cons other, placeholders]
      · exact ih
      · exact other

end Filling

end Template

/-! ## Ancestors -/

namespace Lineage

/-- The lineages have ancestors of the same types in the same order. -/
structure Aligned (first second : Lineage) : Prop where
  types : first.entries.map (·.1) = second.entries.map (·.1)
  distinct : (first.entries.map (·.1)).Nodup

/-- Each of the contents, as a placeholder, stands for the same in the ancestors of one type. -/
def AgreeOn (contents : List (List Char)) (first second : Lineage) : Prop :=
  ∀ type ancestor other, first.find? type = some ancestor → second.find? type = some other →
    ∀ content ∈ contents,
      Template.ancestorValue? (Template.stripSuffix type.toList) ancestor.fields content
        = Template.ancestorValue? (Template.stripSuffix type.toList) other.fields content

theorem aligned_empty : Aligned empty empty := ⟨rfl, .nil⟩

/-- Lineages stay aligned when each gets an ancestor of one type. -/
theorem Aligned.insert {first second : Lineage} (aligned : Aligned first second) (type : String)
    (entity other : Entity) : Aligned (first.insert type entity) (second.insert type other) where
  types := by
    change (put _ _ _).map _ = (put _ _ _).map _
    rw [names_put, names_put, aligned.types]
  distinct := nodup_put aligned.distinct type entity

end Lineage

namespace Template

/-- Ancestor after ancestor the same is filled in. -/
theorem foldl_fillPlaceholders_congr {contents : List (List Char)} :
    ∀ {first second : List (String × Entity)} (text : List Char),
      first.map (·.1) = second.map (·.1) → (first.map (·.1)).Nodup →
      Lineage.AgreeOn contents ⟨first⟩ ⟨second⟩ → placeholders text ⊆ contents →
      first.foldl (fun filled entry =>
          fillPlaceholders (ancestorValue? (stripSuffix entry.1.toList) entry.2.fields) filled) text
        = second.foldl (fun filled entry =>
          fillPlaceholders (ancestorValue? (stripSuffix entry.1.toList) entry.2.fields) filled) text
  | [], second, text, types, _, _, _ => by
      obtain rfl := List.map_eq_nil_iff.mp types.symm
      rfl
  | (_, ancestor) :: first, second, text, types, distinct, agree, inside => by
      obtain ⟨⟨type, other⟩, others, rfl, rfl, same⟩ := List.map_eq_cons_iff.mp types.symm
      obtain ⟨fresh, following⟩ := List.nodup_cons.mp distinct
      have here := agree type ancestor other (by simp [Lineage.find?, lookupEntry])
        (by simp [Lineage.find?, lookupEntry])
      have filled := fillPlaceholders_congr text fun content member => here content (inside member)
      rw [List.foldl_cons, List.foldl_cons, filled]
      have later : Lineage.AgreeOn contents ⟨first⟩ ⟨others⟩ := by
        intro another one two found also content member
        have elsewhere : another ≠ type := by
          rintro rfl
          exact fresh (List.mem_map.mpr ⟨_, mem_of_lookupEntry found, rfl⟩)
        refine agree another one two ?_ ?_ content member
        · simpa [Lineage.find?, lookupEntry, elsewhere] using found
        · simpa [Lineage.find?, lookupEntry, elsewhere] using also
      refine foldl_fillPlaceholders_congr _ same.symm following later ?_
      refine List.Subset.trans (placeholders_fillPlaceholders ?_ text) inside
      intro content shown known
      exact brace_not_mem_ancestorValue known

/-- **What a template is resolved by.** If each placeholder of the template stands for the same in
the ancestors of both lineages, the template is resolved to the same. -/
theorem resolve_congr {first second : Lineage} (aligned : first.Aligned second) (entity : Entity)
    {template : String} (agree : first.AgreeOn (placeholders template.toList) second) :
    resolve first entity template = resolve second entity template := by
  have filled : fillAncestors first template.toList = fillAncestors second template.toList :=
    foldl_fillPlaceholders_congr _ aligned.types aligned.distinct agree (List.Subset.refl _)
  rw [resolve, resolve, fill, fill, filled]

/-- A slash is put in front of a text, or it has one. -/
theorem rooted_eq (text : List Char) :
    (rooted text = text ∧ text.head? = some '/') ∨ rooted text = '/' :: text := by
  unfold rooted
  split
  · exact .inl ⟨rfl, rfl⟩
  · exact .inr rfl

end Template

end DesiredState
