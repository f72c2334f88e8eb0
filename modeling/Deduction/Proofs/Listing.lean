import Deduction.Proofs.Images
import Deduction.Proofs.Membership
import Deduction.Proofs.Opening
import Deduction.Proofs.Readability

/-! # Enumerations of finite sets

A finite set is enumerated without gaps: whatever is enumerated lies in the set, and whatever
lies in it equals something enumerated. Tuples are compared by their names, which spell the
components. No two tuples of a product are spelled alike, unless there is punctuation in the
names of its elements. -/

namespace Deduction

/-! ## Names of tuples -/

theorem toList_tupleName (components : List Object) :
    (tupleName components).toList =
      '(' :: ((", ".intercalate (components.map Object.text)).toList ++ [')']) := by
  cases components with
  | nil => rfl
  | cons x components => simp [tupleName, argumentText]

theorem tupleName_ne_empty (components : List Object) : tupleName components ≠ "" := by
  intro isEmpty
  have spelled := toList_tupleName components
  rw [isEmpty] at spelled
  cases spelled

theorem tupleName_of_key {components others : List Object}
    (same : List.Forall₂ (fun x y => x.key = y.key) components others) :
    tupleName components = tupleName others := by
  have texts : components.map Object.text = others.map Object.text := by
    induction same with
    | nil => rfl
    | cons ofFirst _ induction => simp [Object.text_of_key ofFirst, induction]
  rw [← String.toList_inj, toList_tupleName, toList_tupleName, texts]

theorem key_of_tupleName {x y : Object} (spelled : x.name = tupleName x.components)
    (spelled' : y.name = tupleName y.components)
    (same : tupleName x.components = tupleName y.components) : x.key = y.key := by
  rw [← Object.beq_iff_key, Object.beq_iff_name, spelled, spelled', same]
  · exact spelled ▸ tupleName_ne_empty _
  · exact spelled' ▸ tupleName_ne_empty _

/-! ## Membership -/

namespace Store

variable {store : Store} {set : Collection} {factors : List Collection}
  {columns : List (List Object)} {objects components : List Object}

theorem containsEach_of_chosen
    (contained : List.Forall₂ (fun factor column => ∀ x ∈ column, store.contains factor x = true)
      factors columns)
    (chosen : List.Forall₂ (· ∈ ·) components columns) :
    store.containsEach factors components = true := by
  induction contained generalizing components with
  | nil =>
      cases chosen
      rw [containsEach]
  | cons ofColumn _ induction =>
      cases chosen with
      | cons member others =>
          rw [containsEach, ofColumn _ member, induction others, Bool.and_self]

theorem Enumerates.containsAll {later : Store}
    (members : ∀ id, store.members id ⊆ later.members id)
    (finite : Collection.allFinite factors = true)
    (enumerates : List.Forall₂ store.Enumerates factors columns) :
    List.Forall₂ (fun factor column => ∀ x ∈ column, later.contains factor x = true)
      factors columns := by
  apply Enumerates.inductionAll (motive := fun set objects =>
    ∀ x ∈ objects, later.contains set x = true) _ _ factors finite enumerates
  · intro id name x member
    rw [Store.contains]
    exact List.contains_iff_exists_mem_beq.mpr
      ⟨x, members id member, Object.beq_iff_key.mpr rfl⟩
  · intro id name factors columns objects some contained areTuples x member
    have chosen := areTuples.chosen member
    have isTuple : x.isTuple = true := by
      have sameLength := chosen.length_eq.trans contained.length_eq.symm
      have positive := List.length_pos_iff.mpr some
      cases parts : x.components <;> simp_all [Object.isTuple]
    rw [Store.contains, isTuple, containsEach_of_chosen contained chosen, Bool.and_self]

theorem Enumerates.contains (finite : set.isFinite = true)
    (enumerates : store.Enumerates set objects) : ∀ x ∈ objects, store.contains set x = true := by
  have allFinite : Collection.allFinite [set] = true := by simp [Collection.allFinite, finite]
  have contained := Enumerates.containsAll (fun id => List.Subset.refl (store.members id))
    allFinite (.cons enumerates .nil)
  exact (List.forall₂_cons.mp contained).1

theorem exists_chosen_of_containsEach {among : Object → Prop}
    (complete : List.Forall₂ (fun factor column => ∀ x : Object, x.Within among →
      store.contains factor x = true → ∃ y ∈ column, x.key = y.key) factors columns)
    (within : ∀ component ∈ components, component.Within among)
    (contains : store.containsEach factors components = true) :
    ∃ others, List.Forall₂ (· ∈ ·) others columns ∧
      List.Forall₂ (fun x y => x.key = y.key) components others := by
  induction complete generalizing components with
  | nil =>
      cases components with
      | nil => exact ⟨[], .nil, .nil⟩
      | cons x components => simp [containsEach] at contains
  | cons ofFactor _ induction =>
      cases components with
      | nil => simp [containsEach] at contains
      | cons x components =>
          rw [containsEach, Bool.and_eq_true] at contains
          rw [List.forall_mem_cons] at within
          rcases ofFactor x within.1 contains.1 with ⟨y, member, same⟩
          rcases induction within.2 contains.2 with ⟨others, chosen, sameOthers⟩
          exact ⟨y :: others, .cons member chosen, .cons same sameOthers⟩

/-- An element of a finite set equals an enumerated one, since both are spelled alike. -/
theorem Enumerates.exists_key_eq {among : Object → Prop} (finite : set.isFinite = true)
    (enumerates : store.Enumerates set objects) :
    ∀ x : Object, x.Within among → store.contains set x = true → ∃ y ∈ objects, x.key = y.key := by
  apply Enumerates.induction (motive := fun set objects => ∀ x : Object, x.Within among →
    store.contains set x = true → ∃ y ∈ objects, x.key = y.key) _ _ set finite enumerates
  · intro id name x _ contains
    rw [Store.contains] at contains
    rcases List.contains_iff_exists_mem_beq.mp contains with ⟨y, member, same⟩
    exact ⟨y, member, Object.beq_iff_key.mp same⟩
  · intro id name factors columns objects _ complete areTuples x within contains
    rw [Store.contains, Bool.and_eq_true] at contains
    rcases exists_chosen_of_containsEach complete (fun _ => within.component) contains.2 with
      ⟨others, chosen, same⟩
    have isCombination := mem_combinations_iff.mpr chosen
    rw [← areTuples.components] at isCombination
    rcases List.mem_map.mp isCombination with ⟨y, member, rfl⟩
    refine ⟨y, member, ?_⟩
    have spelled : x.name = tupleName x.components := by
      rcases within.isSpelled with noComponents | spelled
      · simp [Object.isTuple, noComponents] at contains
      · exact spelled
    apply key_of_tupleName spelled (areTuples.spelled y member).1
    exact tupleName_of_key same

end Store

/-! ## Distinct texts

Inside the name of a tuple, the text of a component ends before a comma or a bracket. -/

def isPunctuation (c : Char) : Bool :=
  c == '(' || c == ')' || c == ','

def isUnpunctuated (name : String) : Bool :=
  name.toList.all fun c => !isPunctuation c

namespace Object

open Reader

variable {x y : Object}

theorem isPunctuation_of_ends {rest : List Char} (ends : Ends rest) :
    ∀ c, rest.head? = some c → isPunctuation c = true := by
  intro c isHead
  rcases ends c isHead with rfl | rfl <;> rfl

theorem numberWord_unpunctuated (x : Object) :
    ∀ c ∈ x.numberWord.toList, isPunctuation c = false := by
  intro c member
  have isWord := x.isWord_numberWord
  rw [Deduction.isWord, Bool.and_eq_true, List.all_eq_true] at isWord
  have isPart := isWord.2 c member
  by_contra isMark
  simp only [isPunctuation, Bool.not_eq_false, Bool.or_eq_true, beq_iff_eq] at isMark
  rcases isMark with (rfl | rfl) | rfl <;> exact absurd isPart (by decide)

theorem key_of_text_append {rest rest' : List Char} (plain : isUnpunctuated x.name = true)
    (plain' : isUnpunctuated y.name = true) (ends : Ends rest) (ends' : Ends rest')
    (same : x.text.toList ++ rest = y.text.toList ++ rest') : x.key = y.key ∧ rest = rest' := by
  simp only [isUnpunctuated, List.all_eq_true, Bool.not_eq_true'] at plain plain'
  have letters : ∀ c ∈ "Obj".toList, isPunctuation c = false := by simp [isPunctuation]
  have bracket : ∀ others : List Char, ∀ c, ('(' :: others).head? = some c →
      isPunctuation c = true := by simp [isPunctuation]
  have notBracket : ∀ others : List Char, ¬Ends ('(' :: others) := by
    intro others isEnd
    rcases isEnd '(' rfl with isComma | isBracket
    · cases isComma
    · cases isBracket
  by_cases unnamed : x.name = "" <;> by_cases unnamed' : y.name = ""
  · rw [text_of_unnamed unnamed, text_of_unnamed unnamed', String.toList_append,
      String.toList_append, List.append_assoc, List.append_assoc, toList_argumentText,
      toList_argumentText] at same
    have sameNumber := (List.cons.inj (List.append_cancel_left same)).2
    rcases eq_of_append_eq x.numberWord_unpunctuated y.numberWord_unpunctuated
      (by simp [isPunctuation]) (by simp [isPunctuation]) sameNumber with ⟨isNumber, isRest⟩
    have sameId := id_of_numberWord (String.toList_inj.mp isNumber)
    exact ⟨by simp [key, unnamed, unnamed', sameId], (List.cons.inj isRest).2⟩
  · rw [text_of_unnamed unnamed, text_of_named unnamed', String.toList_append,
      List.append_assoc, toList_argumentText] at same
    have split := eq_of_append_eq letters plain' (bracket _) (isPunctuation_of_ends ends') same
    exact absurd (split.2 ▸ ends') (notBracket _)
  · rw [text_of_named unnamed, text_of_unnamed unnamed', String.toList_append,
      List.append_assoc, toList_argumentText] at same
    have split := eq_of_append_eq plain letters (isPunctuation_of_ends ends) (bracket _) same
    exact absurd (split.2 ▸ ends) (notBracket _)
  · rw [text_of_named unnamed, text_of_named unnamed'] at same
    rcases eq_of_append_eq plain plain' (isPunctuation_of_ends ends)
      (isPunctuation_of_ends ends') same with ⟨sameName, sameRest⟩
    exact ⟨by simp [key, unnamed', String.toList_inj.mp sameName], sameRest⟩

end Object

/-- Where a component may end, the texts of the objects are told apart. -/
def TellsApart (objects : List Object) : Prop :=
  ∀ x ∈ objects, ∀ y ∈ objects, ∀ rest rest', Reader.Ends rest → Reader.Ends rest' →
    x.text.toList ++ rest = y.text.toList ++ rest' → x.key = y.key ∧ rest = rest'

section

variable {columns : List (List Object)} {components others objects : List Object}
  {rest rest' : List Char}

theorem keys_of_intercalate (tell : ∀ column ∈ columns, TellsApart column)
    (chosen : List.Forall₂ (· ∈ ·) components columns)
    (chosen' : List.Forall₂ (· ∈ ·) others columns)
    (same : (", ".intercalate (components.map Object.text)).toList ++ ')' :: rest =
      (", ".intercalate (others.map Object.text)).toList ++ ')' :: rest') :
    List.Forall₂ (fun x y => x.key = y.key) components others ∧ rest = rest' := by
  induction columns generalizing components others with
  | nil =>
      cases chosen
      cases chosen'
      exact ⟨.nil, (List.cons.inj same).2⟩
  | cons column columns induction =>
      rw [List.forall_mem_cons] at tell
      cases chosen with
      | @cons x _ components _ member chosen =>
        cases chosen' with
        | @cons y _ others _ member' chosen' =>
          cases columns with
          | nil =>
              cases chosen
              cases chosen'
              rcases tell.1 x member y member' _ _ (Reader.ends_bracket rest)
                (Reader.ends_bracket rest') (by simpa using same) with ⟨sameKey, sameRest⟩
              exact ⟨.cons sameKey .nil, (List.cons.inj sameRest).2⟩
          | cons =>
              cases chosen with
              | cons first chosen =>
                cases chosen' with
                | cons first' chosen' =>
                  rw [List.map_cons, List.map_cons, List.map_cons, List.map_cons,
                    Reader.toList_intercalate_cons_cons, Reader.toList_intercalate_cons_cons,
                    List.append_assoc, List.append_assoc] at same
                  rcases tell.1 x member y member' _ _ (Reader.ends_comma _)
                    (Reader.ends_comma _) same with ⟨sameKey, sameRest⟩
                  rcases induction tell.2 (.cons first chosen) (.cons first' chosen')
                    (List.cons.inj (List.cons.inj sameRest).2).2 with ⟨sameKeys, isRest⟩
                  exact ⟨.cons sameKey sameKeys, isRest⟩

theorem keys_of_tupleName (tell : ∀ column ∈ columns, TellsApart column)
    (chosen : List.Forall₂ (· ∈ ·) components columns)
    (chosen' : List.Forall₂ (· ∈ ·) others columns)
    (same : (tupleName components).toList ++ rest = (tupleName others).toList ++ rest') :
    List.Forall₂ (fun x y => x.key = y.key) components others ∧ rest = rest' := by
  rw [toList_tupleName, toList_tupleName] at same
  exact keys_of_intercalate tell chosen chosen' (by simpa using same)

theorem AreTuples.tellsApart (areTuples : AreTuples columns objects)
    (tell : ∀ column ∈ columns, TellsApart column) : TellsApart objects := by
  intro x member y member' rest rest' _ _ same
  have spelled := (areTuples.spelled x member).1
  have spelled' := (areTuples.spelled y member').1
  rw [Object.text_of_named (spelled ▸ tupleName_ne_empty _),
    Object.text_of_named (spelled' ▸ tupleName_ne_empty _), spelled, spelled'] at same
  rcases keys_of_tupleName tell (areTuples.chosen member) (areTuples.chosen member') same with
    ⟨sameKeys, sameRest⟩
  exact ⟨key_of_tupleName spelled spelled' (tupleName_of_key sameKeys), sameRest⟩

theorem AreTuples.distinct (areTuples : AreTuples columns objects)
    (tell : ∀ column ∈ columns, TellsApart column)
    (distinct : ∀ column ∈ columns, column.Pairwise fun x y => ¬x.key = y.key) :
    objects.Pairwise fun x y => ¬x.key = y.key := by
  have differ := pairwise_combinations distinct
  rw [← areTuples.components, List.pairwise_map] at differ
  apply differ.imp_of_mem
  intro x y member member' different same
  have sameName := Object.name_of_key same
  rw [(areTuples.spelled x member).1, (areTuples.spelled y member').1] at sameName
  have sameText :
      (tupleName x.components).toList ++ [] = (tupleName y.components).toList ++ [] := by
    rw [sameName]
  exact different (keys_of_tupleName tell (areTuples.chosen member)
    (areTuples.chosen member') sameText).1

end

mutual

/-- The plain sets that a set is built of. -/
def Collection.plainParts : Collection → List SetId
  | .plain id _ => [id]
  | .number _ => []
  | .product _ _ factors => Collection.plainPartsOfAll factors
  | .function _ _ _ _ _ => []

def Collection.plainPartsOfAll : List Collection → List SetId
  | [] => []
  | head :: tail => head.plainParts ++ Collection.plainPartsOfAll tail

end

theorem forall_columns {ofPart : SetId → Prop} {ofColumn : List Object → Prop}
    {factors : List Collection} {columns : List (List Object)}
    (ofFactors : List.Forall₂ (fun factor column =>
      (∀ id ∈ factor.plainParts, ofPart id) → ofColumn column) factors columns)
    (ofParts : ∀ id ∈ Collection.plainPartsOfAll factors, ofPart id) :
    ∀ column ∈ columns, ofColumn column := by
  induction ofFactors with
  | nil => simp
  | cons ofFactor _ induction =>
      rw [Collection.plainPartsOfAll, List.forall_mem_append] at ofParts
      exact List.forall_mem_cons.mpr ⟨ofFactor ofParts.1, induction ofParts.2⟩

theorem Store.Enumerates.distinct {store : Store} {set : Collection} {objects : List Object}
    (isDistinct : store.Distinct) (finite : set.isFinite = true)
    (plain : ∀ id ∈ set.plainParts, ∀ x ∈ store.members id, isUnpunctuated x.name = true)
    (enumerates : store.Enumerates set objects) :
    TellsApart objects ∧ objects.Pairwise fun x y => ¬x.key = y.key := by
  revert plain
  apply Enumerates.induction (motive := fun set objects =>
    (∀ id ∈ set.plainParts, ∀ x ∈ store.members id, isUnpunctuated x.name = true) →
      TellsApart objects ∧ objects.Pairwise fun x y => ¬x.key = y.key) _ _ set finite enumerates
  · intro id name plain
    rw [Collection.plainParts, List.forall_mem_singleton] at plain
    constructor
    · intro x member y member' rest rest' ends ends' same
      exact Object.key_of_text_append (plain x member) (plain y member') ends ends' same
    · apply (isDistinct id).imp
      intro x y differ
      exact Object.beq_eq_false_iff_key.mp differ
  · intro id name factors columns objects _ ofFactors areTuples plain
    rw [Collection.plainParts] at plain
    have ofColumns := forall_columns ofFactors plain
    have tell := fun column member => (ofColumns column member).1
    exact ⟨areTuples.tellsApart tell,
      areTuples.distinct tell fun column member => (ofColumns column member).2⟩

/-! ## Finite sets of a run -/

/-- Enumerating a finite set is sound, complete and in lexicographic order. -/
theorem Run.Reachable.enumeration_of_isFinite {run : Run} (reachable : run.Reachable)
    {set : Collection} (finite : set.isFinite = true) (hasFactors : set.hasFactors = true) :
    (∃ cursor after objects,
      Kernel.outcome (Kernel.enumerate set) run.store = (.ok cursor, after) ∧
      cursor.Yields objects ∧ cursor.Lasts objects.length) ∧
    ∀ objects, run.store.Enumerates set objects →
      (∀ x ∈ objects, run.store.contains set x = true) ∧
      (∀ x, run.Holds (.object x) → run.store.contains set x = true →
        ∃ y ∈ objects, (x == y) = true) ∧
      (∀ id name factors, set = .product id name factors →
        ∃ columns, List.Forall₂ run.store.Enumerates factors columns ∧
          objects.length = volume columns ∧
          (∀ x ∈ objects, x.name = tupleName x.components ∧ x.owner = none) ∧
          ∀ position : Nat, objects[position]?.map Object.components = chosenAt columns position) ∧
      ((∀ id ∈ set.plainParts, ∀ x ∈ run.store.members id, isUnpunctuated x.name = true) →
        objects.Pairwise fun x y => (x == y) = false) := by
  constructor
  · rcases Kernel.exists_enumerate set finite hasFactors run.store with ⟨cursor, after, ok⟩
    have opens : run.store.Opens set cursor := ⟨run.store.created, after, ok⟩
    have bounded := opens.isBounded finite
    have yields := bounded.yields_drain after.created
    refine ⟨cursor, after, _, ok, yields, ?_⟩
    rw [yields.length_eq bounded]
    exact bounded.lasts
  · intro objects enumerates
    refine ⟨enumerates.contains finite, ?_, ?_, ?_⟩
    · intro x held contains
      rcases enumerates.exists_key_eq finite x (reachable.within held) contains with
        ⟨y, member, same⟩
      exact ⟨y, member, Object.beq_iff_key.mpr same⟩
    · rintro id name factors rfl
      rw [Collection.isFinite] at finite
      rcases enumerates.of_product finite with ⟨_, columns, ofFactors, areTuples⟩
      refine ⟨columns, ofFactors, ?_, areTuples.spelled, fun position => ?_⟩
      · rw [← List.length_map Object.components, areTuples.components, length_combinations]
      · rw [← List.getElem?_map, areTuples.components, getElem?_combinations]
    · intro plain
      apply (enumerates.distinct reachable.distinct finite plain).2.imp
      intro x y
      exact Object.beq_eq_false_iff_key.mpr

/-! The sample has a product of a product, and one of the members has no name. -/

namespace Run.Sample

def letters : Collection := .plain 1 "A"

def marks : Collection := .plain 2 "B"

def letter : Object := ⟨1, "a", none, []⟩

def nameless : Object := ⟨2, "", none, []⟩

def mark : Object := ⟨3, "b", none, []⟩

def lettersAndMarks : Collection := .product 3 "P" [letters, marks]

def nested : Collection := .product 4 "Q" [lettersAndMarks, letters]

def unfilled : Run :=
  ((((start.after (.plainSet "A")).after (.plainSet "B")).after (.object "a")).after
    (.object "")).after (.object "b")

def filled : Run :=
  (((unfilled.after (.insert letters letter)).after (.insert letters nameless)).after
    (.insert marks mark)).after (.productSet "P" [letters, marks])

def combined : Run :=
  filled.after (.productSet "Q" [lettersAndMarks, letters])

theorem reachable_filled : filled.Reachable := by
  have reachable : unfilled.Reachable := by
    refine .after (.after (.after (.after (.after .start ?_) ?_) ?_) ?_) ?_ <;>
      exact fun _ member => nomatch member
  refine .after (.after (.after (.after reachable ?_) ?_) ?_) ?_ <;>
    refine List.forall_mem_cons.mpr ⟨?_, List.forall_mem_singleton.mpr ?_⟩
  · exact .result (List.mem_of_getElem? (i := 4) rfl) List.mem_cons_self
  · exact .result (List.mem_of_getElem? (i := 2) rfl) List.mem_cons_self
  · exact .result (List.mem_of_getElem? (i := 5) rfl) List.mem_cons_self
  · exact .result (List.mem_of_getElem? (i := 2) rfl) List.mem_cons_self
  · exact .result (List.mem_of_getElem? (i := 5) rfl) List.mem_cons_self
  · exact .result (List.mem_of_getElem? (i := 2) rfl) List.mem_cons_self
  · exact .result (List.mem_of_getElem? (i := 7) rfl) List.mem_cons_self
  · exact .result (List.mem_of_getElem? (i := 6) rfl) List.mem_cons_self

theorem reachable_combined : combined.Reachable := by
  refine .after reachable_filled (List.forall_mem_cons.mpr ⟨?_, List.forall_mem_singleton.mpr ?_⟩)
  · exact .result (List.mem_of_getElem? (i := 0) rfl) List.mem_cons_self
  · exact .result (List.mem_of_getElem? (i := 8) rfl) List.mem_cons_self

end Run.Sample

open Run.Sample in
theorem Run.Reachable.enumeration_of_nested :
    combined.Reachable ∧ nested.isFinite = true ∧ nested.hasFactors = true ∧
      (∃ cursor after objects,
        Kernel.outcome (Kernel.enumerate nested) combined.store = (.ok cursor, after) ∧
        cursor.Yields objects ∧ cursor.Lasts objects.length) ∧
      ∀ objects, combined.store.Enumerates nested objects →
        (∀ x ∈ objects, combined.store.contains nested x = true) ∧
        objects.Pairwise fun x y => (x == y) = false := by
  have finite : nested.isFinite = true := rfl
  have hasFactors : nested.hasFactors = true := rfl
  have plain : ∀ id ∈ nested.plainParts, ∀ x ∈ combined.store.members id,
      isUnpunctuated x.name = true := by decide +kernel
  rcases reachable_combined.enumeration_of_isFinite finite hasFactors with ⟨succeeds, ofAll⟩
  refine ⟨reachable_combined, finite, hasFactors, succeeds, fun objects enumerates => ?_⟩
  rcases ofAll objects enumerates with ⟨contained, _, _, distinct⟩
  exact ⟨contained, distinct plain⟩

end Deduction
