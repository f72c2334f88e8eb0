import Deduction.Proofs.Listing
import Deduction.Proofs.Naturals

/-! # Endless products

A product whose first factor is endless is enumerated lazily. A head is pulled only when all
combinations of the other factors have been used up with the one before, so that the pulls of
the product decide which pulls of the first factor take place. -/

namespace Deduction

/-- Holds if first factors lead to the naturals and the others can be combined with them. -/
def Store.isStream (store : Store) : Collection → Bool
  | .number (.naturals _) => true
  | .product _ _ (first :: rest) =>
      store.isStream first && Collection.allFinite rest && decide (0 < store.sizeAll rest)
  | _ => false

namespace Cursor

/-! ## Pulls of an endless cursor -/

/-- Pulls of a product give the tuples of the pulled heads in order. No head is pulled before
the combinations of the columns with the last one are used up. -/
structure Combines (columns : List (List Object)) (headLog log : List Pulled) : Prop where
  length_heads : headLog.length = (log.length + volume columns - 1) / volume columns
  made_eq : made log = log.length + made headLog
  tuple_at : ∀ position pulled, log[position]? = some pulled →
    ∃ head tail, headLog[position / volume columns]? = some head ∧
      chosenAt columns (position % volume columns) = some tail ∧
      pulled.object = ⟨pulled.after, tupleName (head.object :: tail), none, head.object :: tail⟩

/-- How many objects a number of pulls creates from the beginning on. -/
def price : Cursor → Nat → Nat
  | listed _, _ => 0
  | counting _ _, number => number
  | tuples heads tails _, number =>
      number + heads.price ((number + tails.length - 1) / tails.length)

theorem length_heads_of_conserved {number left heads total : Nat} (few : left < total)
    (conserved : number + left = heads * total) :
    heads = (number + total - 1) / total := by
  symm
  apply Nat.div_eq_of_lt_le
  · omega
  · rw [Nat.add_mul]
    omega

theorem Gives.combines {heads rest : Cursor} {columns : List (List Object)} {log : List Pulled}
    (productive : heads.IsProductive) (positive : 0 < volume columns)
    (gives : (tuples heads (combinations columns) []).Gives log rest) :
    ∃ headLog restHeads, heads.Gives headLog restHeads ∧ Combines columns headLog log := by
  rw [← length_combinations] at positive
  cases isTails : combinations columns with
  | nil => simp [isTails] at positive
  | cons tail others =>
      rw [isTails] at gives
      rcases gives.of_tuples productive with
        ⟨headLog, restHeads, left, _, givesHeads, conserved, cost, areTuples, short⟩
      rw [← isTails, List.nil_append] at conserved
      have few : left.length < (combinations columns).length := by
        rw [isTails, List.length_cons]
        exact Nat.lt_succ_of_le (short (Nat.zero_le _))
      have counted : log.length + left.length =
          headLog.length * (combinations columns).length := by
        simpa using congrArg List.length conserved
      refine ⟨headLog, restHeads, givesHeads, ?_, cost, ?_⟩
      · rw [← length_combinations]
        exact length_heads_of_conserved few counted
      · intro position pulled isPulled
        -- The tuple was handed out, so it is not among those left over.
        have found : ((headLog.map Pulled.object).flatMap fun head =>
            (combinations columns).map (head :: ·))[position]? =
              some pulled.object.components := by
          rw [List.flatMap_map, ← conserved, List.getElem?_append_left, List.getElem?_map, isPulled]
          · rfl
          · rw [List.length_map]
            exact (List.getElem?_eq_some_iff.mp isPulled).1
        rw [getElem?_flatMap_cons, length_combinations, getElem?_combinations,
          Option.bind_eq_some_iff] at found
        rcases found with ⟨x, isHead, isTuple⟩
        rw [List.getElem?_map, Option.map_eq_some_iff] at isHead
        rcases isHead with ⟨head, isHead, rfl⟩
        rcases Option.map_eq_some_iff.mp isTuple with ⟨tail, isTail, isComponents⟩
        refine ⟨head, tail, isHead, isTail, ?_⟩
        rw [isComponents]
        exact areTuples pulled (List.mem_of_getElem? isPulled)

theorem Gives.of_counting {set : SetId} {next : Nat} {rest : Cursor} {log : List Pulled}
    (gives : (counting set next).Gives log rest) :
    made log = log.length ∧ ∀ (position : Nat) (pulled : Pulled), log[position]? = some pulled →
      pulled.object = ⟨pulled.after, toString (next + position), some set, []⟩ := by
  generalize isCursor : counting set next = cursor at gives
  induction gives generalizing next with
  | nil => simp [made]
  | cons pulled _ induction =>
      subst isCursor
      cases Pulls.of_pull pulled (by simp) with
      | skipped steps _ => cases steps
      | item steps =>
          cases steps
          rcases induction rfl with ⟨cost, areNaturals⟩
          constructor
          · simp only [made, List.length_cons] at cost ⊢
            omega
          · intro position pulled isPulled
            cases position with
            | zero =>
                cases isPulled
                rfl
            | succ position =>
                rw [areNaturals position pulled isPulled, Nat.add_right_comm, Nat.add_assoc]

end Cursor

/-- An endless cursor always has objects to give. -/
theorem Kernel.exists_take {cursor : Cursor} (productive : cursor.IsProductive)
    (unbounded : ¬cursor.IsBounded) (number : Nat) (store : Store) :
    ∃ log rest, cursor.Gives log rest ∧ log.length = number ∧
      outcome (take number cursor) store = (.ok (log.map Cursor.Pulled.object, rest),
        { store with created := store.created + Cursor.made log }) := by
  induction number generalizing cursor store with
  | zero => exact ⟨[], cursor, .nil, rfl, rfl⟩
  | succ number induction =>
      rcases productive.exists_pulls store.created with ⟨⟨x, next⟩ | _ | _, later, pulls⟩
      · have pulled := productive.pull_eq pulls
        have performed : outcome (pull cursor) store =
            (.ok (.item x next), { store with created := later }) := by
          change (Except.ok (cursor.pull store.created).1,
            { store with created := (cursor.pull store.created).2 }) = _
          rw [pulled]
        rcases induction (pulls.isProductive_iff.mpr productive)
          (mt pulls.isBounded_iff.mp unbounded) { store with created := later } with
          ⟨log, rest, gives, length, taken⟩
        refine ⟨_, rest, .cons pulled gives, by simp [length], ?_⟩
        have grown := Cursor.le_pullWithin (cursor.effort + 1) cursor store.created
        rw [pulls.pullWithin_eq productive (Nat.lt_succ_self _)] at grown
        rw [take, outcome_bind_of_ok performed]
        dsimp only
        rw [outcome_bind_of_ok taken]
        have total : later + Cursor.made log =
            store.created + Cursor.made (⟨store.created, x, later⟩ :: log) := by
          simp only [Cursor.made] at grown ⊢
          omega
        rw [← total]
        rfl
      · exact absurd rfl (pulls.not_finished_of_unbounded unbounded)
      · exact absurd rfl pulls.returns

/-! ## Streams -/

namespace Store

variable {store : Store} {set first : Collection} {rest : List Collection} {id : SetId}
  {name : String} {cursor left : Cursor} {log : List Cursor.Pulled}

theorem isStream_product_iff :
    store.isStream (.product id name (first :: rest)) = true ↔
      store.isStream first = true ∧ Collection.allFinite rest = true ∧ 0 < store.sizeAll rest := by
  simp [isStream, and_assoc]

theorem Enumerates.volume_eq {columns : List (List Object)}
    (finite : Collection.allFinite rest = true)
    (enumerates : List.Forall₂ store.Enumerates rest columns) :
    volume columns = store.sizeAll rest := by
  rw [← Deduction.length_combinations, Enumerates.length_combinations finite enumerates]

theorem Opens.endless (opens : store.Opens set cursor) (isStream : store.isStream set = true) :
    cursor.IsProductive ∧ ¬cursor.IsBounded := by
  induction set, cursor, opens using Opens.induction with
  | plain id name _ => simp [Store.isStream] at isStream
  | naturals id _ => simp [Cursor.IsProductive, Cursor.IsBounded]
  | product id name first rest heads columns _ _ finite enumerates induction =>
      rcases isStream_product_iff.mp isStream with ⟨ofFirst, _, positive⟩
      rcases induction ofFirst with ⟨productive, unbounded⟩
      refine ⟨⟨productive, fun noTails => ?_⟩, unbounded⟩
      rw [← Enumerates.length_combinations finite enumerates, noTails] at positive
      cases positive

/-- What the pulls create depends on their number alone. -/
theorem Opens.made_eq (opens : store.Opens set cursor) (isStream : store.isStream set = true)
    (gives : cursor.Gives log left) : Cursor.made log = cursor.price log.length := by
  induction set, cursor, opens using Opens.induction generalizing log left with
  | plain id name _ => simp [Store.isStream] at isStream
  | naturals id _ => exact gives.of_counting.1
  | product id name first rest heads columns _ opensFirst finite enumerates induction =>
      rcases isStream_product_iff.mp isStream with ⟨ofFirst, _, positive⟩
      rw [← Enumerates.volume_eq finite enumerates] at positive
      rcases gives.combines (opensFirst.endless ofFirst).1 positive with
        ⟨headLog, leftHeads, givesHeads, combines⟩
      rw [combines.made_eq, induction ofFirst givesHeads, combines.length_heads, Cursor.price,
        length_combinations]

theorem contains_of_natural {x : Object} {value : Nat} (isName : x.name = toString value)
    (set : SetId) : store.contains (.number (.naturals set)) x = true := by
  have written : Numeral.write value = toString value := by
    rw [← String.toList_inj, Numeral.toList_write_natCast]
    simp [Nat.repr_eq_ofList_toDigits]
  have isNatural := (Numeral.isLiteral_write_iff value).mpr ⟨value, rfl⟩
  rw [written, ← isName] at isNatural
  exact (contains_naturals_iff rfl).mpr (.inl isNatural)

theorem Opens.contains {later : Store} (members : ∀ id, store.members id ⊆ later.members id)
    (opens : store.Opens set cursor) (isStream : store.isStream set = true)
    (gives : cursor.Gives log left) :
    ∀ pulled ∈ log, later.contains set pulled.object = true := by
  induction set, cursor, opens using Opens.induction generalizing log left with
  | plain id name _ => simp [Store.isStream] at isStream
  | naturals id _ =>
      intro pulled member
      rcases List.mem_iff_getElem?.mp member with ⟨position, isPulled⟩
      have isNatural := gives.of_counting.2 position pulled isPulled
      exact contains_of_natural (congrArg Object.name isNatural) id
  | product id name first rest heads columns _ opensFirst finite enumerates induction =>
      rcases isStream_product_iff.mp isStream with ⟨ofFirst, _, positive⟩
      rw [← Enumerates.volume_eq finite enumerates] at positive
      rcases gives.combines (opensFirst.endless ofFirst).1 positive with
        ⟨headLog, leftHeads, givesHeads, combines⟩
      intro pulled member
      rcases List.mem_iff_getElem?.mp member with ⟨position, isPulled⟩
      rcases combines.tuple_at position pulled isPulled with ⟨head, tail, isHead, isTail, isTuple⟩
      rw [← getElem?_combinations] at isTail
      have chosen := mem_combinations_iff.mp (List.mem_of_getElem? isTail)
      have inRest := containsEach_of_chosen (Enumerates.containsAll members finite enumerates)
        chosen
      rw [isTuple, Store.contains, containsEach, inRest,
        induction ofFirst givesHeads head (List.mem_of_getElem? isHead)]
      rfl

theorem exists_enumerate_of_isStream : (set : Collection) → store.isStream set = true →
    set.hasFactors = true → (started : Store) →
    ∃ cursor after, Kernel.outcome (Kernel.enumerate set) started = (.ok cursor, after)
  | .plain _ _, isStream, _, _ => by simp [Store.isStream] at isStream
  | .number (.naturals _), _, _, _ => by
      rw [Kernel.enumerate]
      exact ⟨_, _, rfl⟩
  | .number (.rationals _ _), isStream, _, _ => by simp [Store.isStream] at isStream
  | .number (.reals _ _ _), isStream, _, _ => by simp [Store.isStream] at isStream
  | .product _ _ [], _, hasFactors, _ => by simp [Collection.hasFactors] at hasFactors
  | .product _ _ (first :: rest), isStream, hasFactors, started => by
      rcases isStream_product_iff.mp isStream with ⟨ofFirst, finite, _⟩
      simp only [Collection.hasFactors, Collection.allHaveFactors, Bool.and_eq_true] at hasFactors
      rcases Kernel.exists_enumerateAll rest finite hasFactors.2.2 started with
        ⟨columns, middle, okRest⟩
      rcases exists_enumerate_of_isStream first ofFirst hasFactors.2.1 middle with
        ⟨heads, after, okFirst⟩
      rw [Kernel.enumerate, if_pos finite, Kernel.outcome_bind_of_ok okRest,
        Kernel.outcome_bind_of_ok okFirst]
      exact ⟨_, _, rfl⟩
  | .function _ _ _ _ _, isStream, _, _ => by simp [Store.isStream] at isStream

/-- A product of a stream with finite sets is a stream of tuples: heads and combinations take
their turns, and nothing is created but the tuples and what the first factor creates for as
many pulls as there were heads. If the first factor is the set of naturals, the heads are `1`,
`2`, `3` and so on, and belong to it. -/
theorem enumeration_of_isStream
    (isStream : store.isStream (.product id name (first :: rest)) = true) :
    ((Collection.product id name (first :: rest)).hasFactors = true → ∃ cursor after,
      Kernel.outcome (Kernel.enumerate (.product id name (first :: rest))) store =
        (.ok cursor, after)) ∧
    ∀ cursor, store.Opens (.product id name (first :: rest)) cursor →
      (∀ number started, ∃ log left, cursor.Gives log left ∧ log.length = number ∧
        Kernel.outcome (Kernel.take number cursor) started =
          (.ok (log.map Cursor.Pulled.object, left),
            { started with created := started.created + Cursor.made log })) ∧
      ∃ heads columns, store.Opens first heads ∧ List.Forall₂ store.Enumerates rest columns ∧
        volume columns = store.sizeAll rest ∧
        ∀ log left, cursor.Gives log left →
          (∀ later : Store, (∀ set, store.members set ⊆ later.members set) → ∀ pulled ∈ log,
            later.contains (.product id name (first :: rest)) pulled.object = true) ∧
          ∃ headLog leftHeads, heads.Gives headLog leftHeads ∧
            Cursor.Combines columns headLog log ∧
            (∀ naturals, first = .number (.naturals naturals) →
              ∀ (position : Nat) (pulled : Cursor.Pulled), headLog[position]? = some pulled →
                pulled.object = ⟨pulled.after, toString (position + 1), some naturals, []⟩) ∧
            ∀ otherLog others, heads.Gives otherLog others →
              otherLog.length = headLog.length → Cursor.made otherLog = Cursor.made headLog := by
  rcases isStream_product_iff.mp isStream with ⟨ofFirst, _, positive⟩
  refine ⟨fun hasFactors => exists_enumerate_of_isStream _ isStream hasFactors store, ?_⟩
  intro cursor opens
  rcases opens.endless isStream with ⟨productive, unbounded⟩
  refine ⟨Kernel.exists_take productive unbounded, ?_⟩
  rcases opens.of_product with ⟨heads, columns, opensFirst, finite, enumerates, rfl⟩
  have isVolume := Enumerates.volume_eq finite enumerates
  refine ⟨heads, columns, opensFirst, enumerates, isVolume, fun log left gives => ?_⟩
  constructor
  · intro later members
    exact opens.contains members isStream gives
  · rw [← isVolume] at positive
    rcases gives.combines (opensFirst.endless ofFirst).1 positive with
      ⟨headLog, leftHeads, givesHeads, combines⟩
    refine ⟨headLog, leftHeads, givesHeads, combines, ?_, ?_⟩
    · rintro naturals rfl position pulled isPulled
      rw [Nat.add_comm]
      cases opensFirst.of_naturals
      exact givesHeads.of_counting.2 position pulled isPulled
    · intro otherLog others givesOthers sameLength
      rw [opensFirst.made_eq ofFirst givesOthers, opensFirst.made_eq ofFirst givesHeads, sameLength]

end Store

/-! In the sample the naturals are combined with a set of two members, and the result with the
same set again. -/

namespace Run.Sample

def signs : Collection := .plain 4 "S"

def plusSign : Object := ⟨1, "p", none, []⟩

def minusSign : Object := ⟨2, "m", none, []⟩

def signed : Collection := .product 5 "Z" [lowest, signs]

def doublySigned : Collection := .product 6 "W" [signed, signs]

def signing : Run :=
  ((((counted.after (.plainSet "S")).after (.object "p")).after (.object "m")).after
    (.insert signs plusSign)).after (.insert signs minusSign)

def spread : Run :=
  (signing.after (.productSet "Z" [lowest, signs])).after (.productSet "W" [signed, signs])

theorem reachable_spread : spread.Reachable := by
  have reachable : signing.Reachable := by
    refine .after (.after (.after (.after (.after reachable_counted ?_) ?_) ?_) ?_) ?_
    iterate 3 exact fun _ member => nomatch member
    · refine List.forall_mem_cons.mpr ⟨?_, List.forall_mem_singleton.mpr ?_⟩
      · exact .result (List.mem_of_getElem? (i := 2) rfl) List.mem_cons_self
      · exact .result (List.mem_of_getElem? (i := 1) rfl) List.mem_cons_self
    · refine List.forall_mem_cons.mpr ⟨?_, List.forall_mem_singleton.mpr ?_⟩
      · exact .result (List.mem_of_getElem? (i := 3) rfl) List.mem_cons_self
      · exact .result (List.mem_of_getElem? (i := 1) rfl) List.mem_cons_self
  refine .after (.after reachable ?_) ?_
  · refine List.forall_mem_cons.mpr ⟨?_, List.forall_mem_singleton.mpr ?_⟩
    · exact .result (List.mem_of_getElem? (i := 5) rfl) List.mem_cons_self
    · exact .result (List.mem_of_getElem? (i := 4) rfl) List.mem_cons_self
  · refine List.forall_mem_cons.mpr ⟨?_, List.forall_mem_singleton.mpr ?_⟩
    · exact .result (List.mem_of_getElem? (i := 0) rfl) List.mem_cons_self
    · exact .result (List.mem_of_getElem? (i := 5) rfl) List.mem_cons_self

/-- The cursor that goes through the second product. -/
def signCursor : Cursor :=
  .tuples (.tuples (.counting 1 1) [[plusSign], [minusSign]] []) [[plusSign], [minusSign]] []

theorem names_of_take :
    (Kernel.outcome (Kernel.take 5 signCursor) spread.store).1.toOption.map
        (fun taken => taken.1.map Object.name) =
      some ["((1, p), p)", "((1, p), m)", "((1, m), p)", "((1, m), m)", "((2, p), p)"] := by
  decide +kernel

end Run.Sample

open Run.Sample in
theorem Store.enumeration_of_doublySigned :
    spread.Reachable ∧ spread.store.isStream signed = true ∧
      spread.store.isStream doublySigned = true ∧
      (∃ cursor after,
        Kernel.outcome (Kernel.enumerate signed) spread.store = (.ok cursor, after) ∧
        ∀ log left, cursor.Gives log left → ∃ headLog columns,
          volume columns = 2 ∧ Cursor.Combines columns headLog log ∧
          ∀ (position : Nat) (pulled : Cursor.Pulled), headLog[position]? = some pulled →
            pulled.object.name = toString (position + 1) ∧
              pulled.object.owner = some lowest.id) ∧
      ∃ cursor after,
        Kernel.outcome (Kernel.enumerate doublySigned) spread.store = (.ok cursor, after) ∧
        (∀ number started, ∃ log left, cursor.Gives log left ∧ log.length = number ∧
          Kernel.outcome (Kernel.take number cursor) started =
            (.ok (log.map Cursor.Pulled.object, left),
              { started with created := started.created + Cursor.made log }) ∧
          ∃ heads columns headLog leftHeads, spread.store.Opens signed heads ∧
            heads.Gives headLog leftHeads ∧ volume columns = 2 ∧
            Cursor.Combines columns headLog log) ∧
        ∃ log left, cursor.Gives log left ∧ log.map (·.object.name) =
          ["((1, p), p)", "((1, p), m)", "((1, m), p)", "((1, m), m)", "((2, p), p)"] := by
  have isSigned : spread.store.isStream signed = true := by decide +kernel
  have isStream : spread.store.isStream doublySigned = true := by decide +kernel
  refine ⟨reachable_spread, isSigned, isStream, ?_, ?_⟩
  · rcases enumeration_of_isStream isSigned with ⟨succeeds, ofAll⟩
    rcases succeeds (by decide +kernel) with ⟨cursor, after, ok⟩
    rcases ofAll cursor ⟨spread.store.created, after, ok⟩ with
      ⟨_, heads, columns, _, _, isVolume, ofLog⟩
    refine ⟨cursor, after, ok, fun log left gives => ?_⟩
    rcases ofLog log left gives with ⟨_, headLog, _, _, combines, areNaturals, _⟩
    refine ⟨headLog, columns, isVolume, combines, fun position pulled isPulled => ?_⟩
    rw [areNaturals 1 rfl position pulled isPulled]
    exact ⟨rfl, rfl⟩
  · have ok : Kernel.outcome (Kernel.enumerate doublySigned) spread.store =
        (.ok signCursor, spread.store) := rfl
    rcases (enumeration_of_isStream isStream).2 _ ⟨spread.store.created, _, ok⟩ with
      ⟨taking, heads, columns, opensFirst, _, isVolume, ofLog⟩
    refine ⟨_, _, ok, fun number started => ?_, ?_⟩
    · rcases taking number started with ⟨log, left, gives, length, taken⟩
      rcases ofLog log left gives with ⟨_, headLog, leftHeads, givesHeads, combines, _⟩
      exact ⟨log, left, gives, length, taken, heads, columns, headLog, leftHeads, opensFirst,
        givesHeads, isVolume, combines⟩
    · rcases taking 5 spread.store with ⟨log, left, gives, _, taken⟩
      have names := names_of_take
      rw [taken] at names
      exact ⟨log, left, gives, List.map_map.symm.trans (Option.some.inj names)⟩

end Deduction
