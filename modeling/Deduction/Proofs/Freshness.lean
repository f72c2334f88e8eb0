import Deduction.Proofs.Witnesses

/-! # Freshness

The objects of a run have the numbers 1, 2, 3, … in the order of their creation, and no others
occur in it. An unnamed object is unequal to all objects with smaller numbers. So a new unnamed
object, be it asked for, the witness of an existence or a variable that a substitution
introduces, is unequal to all objects of the values that existed before. -/

namespace Deduction

open Session (Item)

/-! ## Numbers -/

theorem Object.beq_eq_false_of_lt {x y : Object} (unnamed : x.name = "") (less : y.id < x.id) :
    (x == y) = false := by
  refine Bool.eq_false_iff.mpr fun equal => ?_
  have sameKey := beq_iff_key.mp equal
  rw [key, if_pos unnamed, key] at sameKey
  split at sameKey
  · exact Nat.ne_of_gt less (Key.unnamed.inj sameKey)
  · cases sameKey

namespace Object.Numbered

variable {objects : List Object} {before after : Nat}

theorem map_id (numbered : Numbered before objects after) :
    objects.map Object.id = List.range' (before + 1) objects.length := by
  induction numbered with
  | nil number => rfl
  | cons isNext _ induction =>
      rw [List.map_cons, isNext, induction]
      rfl

theorem pairwise_unequal (numbered : Numbered before objects after) :
    objects.Pairwise fun earlier later => later.name = "" → (later == earlier) = false := by
  induction numbered with
  | nil number => exact .nil
  | cons isNext rest induction =>
      refine .cons ?_ induction
      intro later member unnamed
      exact beq_eq_false_of_lt unnamed (isNext ▸ rest.lt_id member)

end Object.Numbered

/-! ## Occurrences -/

namespace Run

variable {run : Run} {x : Object}

/-- All objects in the store and in the values at the caller's disposal are among the given
ones. -/
structure Within (among : Object → Prop) (run : Run) : Prop where
  store : run.store.Within among
  items : ∀ item, run.Holds item → item.Within among

theorem Lists.within_all {roster : List Object} (lists : run.Lists roster) :
    run.Within (· ∈ roster) :=
  ⟨lists.store.within, fun _ held => lists.within held⟩

theorem Reachable.within_all (reachable : run.Reachable) :
    run.Within (·.id ≤ run.store.created) :=
  ⟨reachable.created_all.1, fun _ held => reachable.within held⟩

theorem Creates.map_id {objects : List Object} (creates : run.Creates objects) :
    objects.map Object.id = List.range' 1 run.store.created := by
  have numbered := creates.numbered
  rw [← numbered.length_eq, Nat.zero_add]
  exact numbered.map_id

/-- The object is unequal to all objects that occur in the run. -/
def IsFresh (run : Run) (x : Object) : Prop :=
  run.Within fun y => (x == y) = false

theorem Reachable.isFresh_of_lt (reachable : run.Reachable) (unnamed : x.name = "")
    (isNew : run.store.created < x.id) : run.IsFresh x := by
  have unequal : ∀ ⦃y : Object⦄, y.id ≤ run.store.created → (x == y) = false :=
    fun _ le => Object.beq_eq_false_of_lt unnamed (Nat.lt_of_le_of_lt le isNew)
  exact ⟨reachable.within_all.store.mono unequal,
    fun item held => (reachable.within_all.items item held).mono unequal⟩

/-! ## New objects -/

theorem Reachable.isFresh_of_creates (reachable : run.Reachable) {call : Call}
    {objects : List Object} (creates : Kernel.Creates call.perform run.store objects)
    (member : x ∈ objects) (unnamed : x.name = "") : run.IsFresh x :=
  reachable.isFresh_of_lt unnamed (creates.numbered.lt_id member)

theorem Reachable.isFresh_of_resolution (reachable : run.Reachable) {existence proof : Proof}
    (resolved : run.results (.rule (.existentialResolution existence)) =
      [.object x, .proof proof]) : run.IsFresh x := by
  have member : .proof proof ∈ run.results (.rule (.existentialResolution existence)) := by
    rw [resolved]
    exact List.mem_cons_of_mem _ List.mem_cons_self
  obtain ⟨witness, issued, ok, areResults⟩ := ok_of_mem_resolution member
  rw [resolved] at areResults
  cases areResults
  obtain ⟨bound, body, _, rfl, _⟩ := Kernel.ok_of_existentialResolution ok
  exact reachable.isFresh_of_lt rfl (Nat.lt_succ_self _)

theorem Reachable.isFresh_of_introduces (reachable : run.Reachable) {p : Proposition}
    {old new : Object} {created : Nat} {renamings : List Object}
    (le : run.store.created ≤ created) (introduces : p.Introduces old new created renamings)
    (member : x ∈ renamings) : run.IsFresh x := by
  have isNew := Nat.lt_of_le_of_lt le (introduces.numbered.lt_id member)
  rcases introduces.exists_renamed member with ⟨y, number, rfl⟩
  exact reachable.isFresh_of_lt rfl isNew

/-- At every point of a run, its objects have been numbered in the order of their creation, and
none with a larger number occurs; what occurs after the next call was there or is created by it.
So the unnamed objects that a call creates are unequal to all that occur before it, in
particular an unnamed object that is asked for, the witness of an existence and the new
variables of a substitution. Objects that a call creates and drops have a number, too, but
nothing else of them is determined. -/
theorem Reachable.numbered_and_fresh (reachable : run.Reachable) :
    (∃ objects, run.Creates objects ∧ run.Within (· ∈ objects) ∧
        ∀ call : Call, (∀ item ∈ call.operands, run.Holds item) →
          ∃ others, Kernel.Creates call.perform run.store others ∧
            (run.after call).Within (· ∈ objects ++ others)) ∧
      (∀ objects, run.Creates objects →
        objects.map Object.id = List.range' 1 run.store.created ∧
          objects.Pairwise fun earlier later => later.name = "" → (later == earlier) = false) ∧
      run.Within (·.id ≤ run.store.created) ∧
      (∀ (call : Call) objects, Kernel.Creates call.perform run.store objects →
        ∀ x ∈ objects, x.name = "" → run.IsFresh x) ∧
      (∃ x, run.results (.object "") = [.object x] ∧ run.IsFresh x) ∧
      (∀ existence witness proof,
        run.results (.rule (.existentialResolution existence)) =
          [.object witness, .proof proof] → run.IsFresh witness) ∧
      ∀ (p : Proposition) old new created, run.store.created ≤ created →
        ∃ renamings, p.Introduces old new created renamings ∧
          (∀ x ∈ renamings, run.IsFresh x) ∧
          ∀ x ∈ (p.substitute old new created).1.objects,
            x ∈ p.objects ∨ x = new ∨ x ∈ renamings := by
  refine ⟨?_, ?_, reachable.within_all, ?_, ?_, ?_, ?_⟩
  · rcases reachable.exists_roster with ⟨objects, creates, lists⟩
    refine ⟨objects, creates, lists.within_all, fun call held => ?_⟩
    rcases lists.after held with ⟨others, performed, lists'⟩
    exact ⟨others, performed, lists'.within_all⟩
  · intro objects creates
    exact ⟨creates.map_id, creates.numbered.pairwise_unequal⟩
  · exact fun _ _ creates _ member unnamed =>
      reachable.isFresh_of_creates creates member unnamed
  · exact ⟨_, rfl, reachable.isFresh_of_lt rfl (Nat.lt_succ_self _)⟩
  · exact fun _ _ _ resolved => reachable.isFresh_of_resolution resolved
  · intro p old new created le
    rcases p.exists_introduces old new created with ⟨renamings, introduces⟩
    exact ⟨renamings, introduces,
      fun _ member => reachable.isFresh_of_introduces le introduces member,
      fun _ member => introduces.mem_objects member⟩

/-- In `∃y, R(x, y)`, the variable `y` is renamed when it is put in for `x`. -/
theorem Sample.creates_related :
    Kernel.Creates (Call.substitute related freeX freeY).perform relating.store
      [freeY.renamed 4] := by
  have introduces : related.Introduces freeX freeY 4 (freeY.renamed 4 :: ([] ++ [])) := by
    refine .captured (by decide) rfl rfl .atom ?_
    rw [Proposition.substitute_atom]
    exact .atom
  change Kernel.Creates (Kernel.substitute related freeX freeY >>= fun result =>
    pure [Item.proposition result]) relating.store ([freeY.renamed 4] ++ [])
  exact .bind (.substitute introduces) rfl (.silent rfl)

theorem Reachable.numbered_and_fresh_relating :
    Sample.relating.Reachable ∧
      (∃ objects, Sample.relating.Creates objects ∧
        Sample.relating.Within (· ∈ objects) ∧ objects.map Object.id = [1, 2, 3, 4]) ∧
      Kernel.Creates (Call.substitute Sample.related Sample.freeX Sample.freeY).perform
        Sample.relating.store [Sample.freeY.renamed 4] ∧
      Sample.relating.IsFresh (Sample.freeY.renamed 4) ∧
      ∃ witness proof,
        Sample.relating.results (.rule (.existentialResolution Sample.ofSome)) =
          [.object witness, .proof proof] ∧ Sample.relating.IsFresh witness := by
  obtain ⟨⟨objects, creates, within, _⟩, inOrder, _, ofCall, _, ofResolution, _⟩ :=
    Sample.reachable_relating.numbered_and_fresh
  refine ⟨Sample.reachable_relating, ⟨objects, creates, within, (inOrder objects creates).1⟩,
    Sample.creates_related, ?_, _, _, rfl, ofResolution Sample.ofSome _ _ rfl⟩
  exact ofCall _ _ Sample.creates_related _ List.mem_cons_self rfl

end Run

end Deduction
