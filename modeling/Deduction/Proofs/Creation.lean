import Deduction.Proofs.Constituents
import Deduction.Proofs.Numbering
import Deduction.Proofs.Skeleton

/-! # Creation

Objects are numbered in the order of their creation. All objects in the store and at the
caller's disposal are among those created so far. An operation that is made on such values
keeps it that way, whether it succeeds or is refused; so this holds throughout a run. -/

namespace Deduction

open Session (Item)

/-! ## Operations that keep to created objects -/

namespace Kernel

variable {α β : Type} {roster : List Object}

/-- The store has come to hold no objects but those present and those created, and a returned
value has the given property with respect to them. -/
def Kept (result : List Object → α → Prop) (present : List Object) (action : Kernel α)
    (store : Store) : Prop :=
  ∃ objects, Creates action store objects ∧
    (outcome action store).2.Within (· ∈ present ++ objects) ∧
    ∀ a, (outcome action store).1 = .ok a → result (present ++ objects) a

/-- Started when the objects of the roster, and perhaps more, are present, the operation keeps
to these and to the objects that it creates. -/
def Keeps (roster : List Object) (action : Kernel α) (result : List Object → α → Prop) : Prop :=
  ∀ store present, roster <+: present → store.Within (· ∈ present) →
    Kept result present action store

/-- If all objects created so far are listed, those that the operation creates continue the
list. -/
theorem Keeps.lists {action : Kernel α} {result : List Object → α → Prop} {present : List Object}
    {store : Store} (keeps : Keeps roster action result) (le : roster <+: present)
    (lists : store.Lists present) :
    ∃ objects, Creates action store objects ∧
      (outcome action store).2.Lists (present ++ objects) ∧
      ∀ a, (outcome action store).1 = .ok a → result (present ++ objects) a := by
  rcases keeps store present le lists.within with ⟨objects, creates, within, returns⟩
  exact ⟨objects, creates, ⟨lists.numbered.append creates.numbered, within⟩, returns⟩

/-- An operation that creates nothing. -/
theorem kept_of_silent {action : Kernel α} {result : List Object → α → Prop}
    {present : List Object} {store : Store}
    (sameCount : (outcome action store).2.created = store.created)
    (within : (outcome action store).2.Within (· ∈ present))
    (returns : ∀ a, (outcome action store).1 = .ok a → result present a) :
    Kept result present action store := by
  refine ⟨[], .silent sameCount, ?_, ?_⟩
  · rw [List.append_nil]
    exact within
  · rw [List.append_nil]
    exact returns

theorem keeps_pure {a : α} {result : List Object → α → Prop}
    (returns : ∀ {later}, roster <+: later → result later a) : Keeps roster (pure a) result := by
  intro store present le within
  refine kept_of_silent rfl within ?_
  intro b ok
  cases ok
  exact returns le

theorem keeps_throw {fault : Fault} {result : List Object → α → Prop} :
    Keeps roster (throw fault) result :=
  fun _ _ _ within => kept_of_silent rfl within fun _ ok => nomatch ok

theorem keeps_liftExcept {attempt : Except Fault α} {result : List Object → α → Prop}
    (returns : ∀ {a later}, attempt = .ok a → roster <+: later → result later a) :
    Keeps roster (liftExcept attempt) result := by
  cases attempt with
  | error fault => exact keeps_throw
  | ok a => exact keeps_pure (returns rfl)

theorem keeps_get : Keeps roster get fun later store => store.Within (· ∈ later) := by
  intro store present _ within
  refine kept_of_silent rfl within ?_
  intro read ok
  cases ok
  exact within

theorem keeps_modifyGet {change : Store → α × Store} {result : List Object → α → Prop}
    (sameCount : ∀ store, (change store).2.created = store.created)
    (kept : ∀ {store present}, roster <+: present → store.Within (· ∈ present) →
      (change store).2.Within (· ∈ present) ∧ result present (change store).1) :
    Keeps roster (modifyGet change) result := by
  intro store present le within
  refine kept_of_silent (sameCount store) (kept le within).1 ?_
  intro a ok
  cases ok
  exact (kept le within).2

theorem keeps_modify {change : Store → Store}
    (sameCount : ∀ store, (change store).created = store.created)
    (kept : ∀ {store present}, roster <+: present → store.Within (· ∈ present) →
      (change store).Within (· ∈ present)) :
    Keeps roster (modify change) fun _ _ => True :=
  keeps_modifyGet sameCount fun le within => ⟨kept le within, True.intro⟩

theorem keeps_bind {action : Kernel α} {next : α → Kernel β} {middle : List Object → α → Prop}
    {result : List Object → β → Prop} (first : Keeps roster action middle)
    (second : ∀ {later a}, roster <+: later → middle later a → Keeps later (next a) result) :
    Keeps roster (action >>= next) result := by
  intro store present le within
  rcases first store present le within with ⟨objects, creates, within', returns⟩
  rcases performed : outcome action store with ⟨fault | a, after⟩
  · rw [performed] at within'
    refine ⟨objects, .refused creates performed, ?_, ?_⟩
    · rw [outcome_bind_of_error performed]
      exact within'
    · rw [outcome_bind_of_error performed]
      exact fun _ ok => nomatch ok
  · rw [performed] at within' returns
    rcases second (le.trans (List.prefix_append present objects)) (returns a rfl) after _
      (List.prefix_refl _) within' with ⟨others, creates', within'', returns'⟩
    refine ⟨objects ++ others, .bind creates performed creates', ?_, ?_⟩
    · rw [outcome_bind_of_ok performed, ← List.append_assoc]
      exact within''
    · rw [outcome_bind_of_ok performed, ← List.append_assoc]
      exact returns'

/-! ## Creation and sets -/

theorem keeps_report (event : Event) : Keeps roster (report event) fun _ _ => True :=
  keeps_modify (fun _ => rfl) fun _ within => ⟨within.living, within.members, within.images⟩

theorem keeps_reportAll (events : List Event) : Keeps roster (reportAll events) fun _ _ => True :=
  keeps_modify (fun _ => rfl) fun _ within => ⟨within.living, within.members, within.images⟩

theorem keeps_create (name : String) (owner : Option SetId) {components : List Object}
    (isSpelled : components = [] ∨ name = tupleName components)
    (componentsWithin : ∀ x ∈ components, x.Within (· ∈ roster)) :
    Keeps roster (create name owner components) fun later x => x.Within (· ∈ later) := by
  intro store present le within
  have advances := List.prefix_append present [⟨store.created + 1, name, owner, components⟩]
  have within' := within.mono advances.subset
  refine ⟨_, .create rfl, ⟨within'.living, within'.members, within'.images⟩, ?_⟩
  intro x ok
  cases ok
  exact .intro (List.mem_append_right _ List.mem_cons_self) isSpelled fun x member =>
    (componentsWithin x member).mono (le.trans advances).subset

theorem keeps_form {make : SetId → Collection} (setWithin : ∀ id, (make id).Within (· ∈ roster)) :
    Keeps roster (form make) fun later set => set.Within (· ∈ later) := by
  refine keeps_modifyGet (fun _ => rfl) fun {store _} le within => ?_
  have newWithin := (setWithin (store.formed + 1)).mono le.subset
  refine ⟨⟨?_, within.members, within.images⟩, newWithin⟩
  intro set member
  rcases List.mem_cons.mp member with isNew | isOld
  · exact isNew ▸ newWithin
  · exact within.living set isOld

theorem keeps_numberSets :
    Keeps roster numberSets fun later numbers => numbers.naturals.Within (· ∈ later) ∧
      numbers.rationals.Within (· ∈ later) ∧ numbers.reals.Within (· ∈ later) := by
  have numberWithin : ∀ {among} (set : NumberSet), (Collection.number set).Within among :=
    fun _ _ member => nomatch member
  refine keeps_bind (keeps_form fun id => numberWithin _) ?_
  intro later naturals _ naturalsWithin
  refine keeps_bind (keeps_form fun id => numberWithin _) ?_
  intro later rationals le rationalsWithin
  refine keeps_bind (keeps_form fun id => numberWithin _) ?_
  intro later reals le' realsWithin
  refine keeps_pure fun le'' => ?_
  exact ⟨naturalsWithin.mono (le.trans (le'.trans le'')).subset,
    rationalsWithin.mono (le'.trans le'').subset, realsWithin.mono le''.subset⟩

theorem keeps_literal (numbers : Numbers) (name : String) :
    Keeps roster (literal numbers name) fun later found =>
      ∀ x, found = some x → x.Within (· ∈ later) := by
  unfold literal
  dsimp only
  split
  · refine keeps_bind (keeps_create _ _ (.inl rfl) fun _ member => nomatch member) ?_
    intro later x _ within
    refine keeps_pure fun le y isX => ?_
    cases isX
    exact within.mono le.subset
  · exact keeps_pure fun _ _ isX => nomatch isX

theorem keeps_insert (set : Collection) {x : Object} (xWithin : x.Within (· ∈ roster)) :
    Keeps roster (insert set x) fun _ _ => True := by
  unfold insert
  split
  · refine keeps_bind keeps_get ?_
    intro later read le _
    split
    · exact keeps_pure fun _ => True.intro
    · refine keeps_bind (keeps_report _) ?_
      intro later' _ le' _
      refine keeps_modify (fun _ => rfl) fun le'' within => ?_
      exact within.addMember set.id (xWithin.mono (le.trans (le'.trans le'')).subset)
  · exact keeps_throw

/-! ## Arithmetic and application -/

theorem keeps_calculate (operation : Operation) (left right : Object) :
    Keeps roster (calculate operation left right) fun later x => x.Within (· ∈ later) := by
  refine keeps_bind keeps_get ?_
  intro later store _ _
  split
  · dsimp only
    split
    · exact keeps_create _ _ (.inl rfl) fun _ member => nomatch member
    · exact keeps_create _ _ (.inl rfl) fun _ member => nomatch member
  · exact keeps_throw

theorem keeps_image (function : SetId) (name : String) (domain range : Collection) (x : Object) :
    Keeps roster (image function name domain range x) fun later y => y.Within (· ∈ later) := by
  refine keeps_bind keeps_get ?_
  intro later store _ storeWithin
  split
  · split
    · rename_i y isImage
      exact keeps_pure fun le => (storeWithin.images _ _ y isImage).mono le.subset
    · refine keeps_bind (keeps_create _ _ (.inl rfl) fun _ member => nomatch member) ?_
      intro later y _ yWithin
      refine keeps_bind (keeps_report _) ?_
      intro later' _ le _
      have setWithin : Keeps later' (modify fun store => store.setImage function x.id y)
          fun _ _ => True :=
        keeps_modify (fun _ => rfl) fun le' within =>
          within.setImage function x.id (yWithin.mono (le.trans le').subset)
      refine keeps_bind setWithin ?_
      intro later'' _ le' _
      have yWithin' := yWithin.mono (le.trans le').subset
      split
      · refine keeps_bind (keeps_insert range yWithin') ?_
        intro later''' _ le'' _
        exact keeps_pure fun le''' => yWithin'.mono (le''.trans le''').subset
      · exact keeps_pure fun le'' => yWithin'.mono le''.subset
  · exact keeps_throw

mutual

theorem keeps_apply : (set : Collection) → {roster : List Object} → {x : Object} →
    set.Within (· ∈ roster) → x.Within (· ∈ roster) →
    Keeps roster (apply set x) fun later y => y.Within (· ∈ later)
  | .function id name domain range mapping, roster, x, setWithin, xWithin => by
      have mappingWithin : ∀ y ∈ mapping.objects, y.Within (· ∈ roster) :=
        fun y member => setWithin y (List.mem_append_right _ member)
      rw [apply]
      exact keeps_applyMapping mapping (keeps_image id name domain range x) mappingWithin xWithin
  | .plain id name, _, _, _, _ => by
      rw [apply]
      · exact keeps_throw
      · intro id name domain range mapping isFunction
        cases isFunction
  | .number set, _, _, _, _ => by
      rw [apply]
      · exact keeps_throw
      · intro id name domain range mapping isFunction
        cases isFunction
  | .product id name factors, _, _, _, _ => by
      rw [apply]
      · exact keeps_throw
      · intro id name domain range mapping isFunction
        cases isFunction

theorem keeps_applyMapping {image : Object → Kernel Object} : (mapping : Mapping) →
    {roster : List Object} → {x : Object} →
    Keeps roster (image x) (fun later y => y.Within (· ∈ later)) →
    (∀ y ∈ mapping.objects, y.Within (· ∈ roster)) → x.Within (· ∈ roster) →
    Keeps roster (applyMapping image mapping x) fun later y => y.Within (· ∈ later)
  | .onDemand, _, _, keepsImage, _, _ => by
      rw [applyMapping]
      exact keepsImage
  | .plus summand, _, x, _, _, _ => by
      rw [applyMapping]
      exact keeps_calculate .plus x summand
  | .minus subtrahend, _, x, _, _, _ => by
      rw [applyMapping]
      exact keeps_calculate .minus x subtrahend
  | .constant value, _, _, _, mappingWithin, _ => by
      rw [applyMapping]
      exact keeps_pure fun le => (mappingWithin value List.mem_cons_self).mono le.subset
  | .identity, _, _, _, _, xWithin => by
      rw [applyMapping]
      exact keeps_pure fun le => xWithin.mono le.subset
  | .pair, _, x, _, _, xWithin => by
      rw [applyMapping]
      refine keeps_create _ _ (.inr rfl) fun y member => ?_
      have isX : y = x := by simpa using member
      rw [isX]
      exact xWithin
  | .compose outer inner, _, _, _, mappingWithin, xWithin => by
      rw [applyMapping]
      refine keeps_bind (keeps_apply inner
        (fun y member => mappingWithin y (List.mem_append_right _ member)) xWithin) ?_
      intro later y le yWithin
      exact keeps_apply outer
        (fun z member => (mappingWithin z (List.mem_append_left _ member)).mono le.subset) yWithin

end

end Kernel

/-! ## Enumeration -/

theorem mem_of_mem_combinations {columns : List (List Object)} {components : List Object}
    {x : Object} (isCombination : components ∈ combinations columns) (member : x ∈ components) :
    ∃ column ∈ columns, x ∈ column := by
  induction columns generalizing components with
  | nil =>
      cases List.mem_singleton.mp isCombination
      cases member
  | cons column columns induction =>
      rw [combinations_cons] at isCombination
      obtain ⟨head, headMember, inTails⟩ := List.mem_flatMap.mp isCombination
      obtain ⟨tail, tailMember, rfl⟩ := List.mem_map.mp inTails
      rcases List.mem_cons.mp member with rfl | inTail
      · exact ⟨column, List.mem_cons_self, headMember⟩
      · obtain ⟨other, otherMember, inOther⟩ := induction tailMember inTail
        exact ⟨other, List.mem_cons_of_mem _ otherMember, inOther⟩

namespace Cursor

variable {roster : List Object} {count : Nat} {cursor : Cursor}

def Step.Within (among : Object → Prop) : Step → Prop
  | item x rest => x.Within among ∧ rest.Within among
  | skipped rest => rest.Within among
  | finished => True

def Pull.Within (among : Object → Prop) : Pull → Prop
  | item x rest => x.Within among ∧ rest.Within among
  | finished => True
  | stalled => True

theorem within_tupleAt {components : List Object}
    (within : ∀ x ∈ components, x.Within (· ∈ roster)) :
    (tupleAt components count).Within (· ∈ roster ++ [tupleAt components count]) :=
  .intro (List.mem_append_right _ List.mem_cons_self) (.inr rfl)
    fun x member => (within x member).mono (List.prefix_append _ _).subset

theorem Within.step (within : cursor.Within (· ∈ roster)) :
    (cursor.step count).1.Within (· ∈ roster ++ cursor.creations count) := by
  induction cursor with
  | listed rest =>
      rw [creations, List.append_nil]
      cases rest with
      | nil => exact True.intro
      | cons x rest =>
          exact ⟨within x List.mem_cons_self,
            fun y member => within y (List.mem_cons_of_mem _ member)⟩
  | counting set next =>
      refine ⟨?_, True.intro⟩
      exact .intro (List.mem_append_right _ List.mem_cons_self) (.inl rfl) (List.forall_mem_nil _)
  | tuples heads tails pending induction =>
      rcases within with ⟨headsWithin, tailsWithin, pendingWithin⟩
      cases pending with
      | cons components pending =>
          refine ⟨within_tupleAt (pendingWithin components List.mem_cons_self), ?_⟩
          exact Within.mono (List.prefix_append _ _).subset ⟨headsWithin, tailsWithin,
            fun others member => pendingWithin others (List.mem_cons_of_mem _ member)⟩
      | nil =>
          -- The heads make a step, in which they may create objects of their own.
          have advances := List.prefix_append roster (heads.creations count)
          have stepWithin := induction headsWithin
          have tailsWithin' : ∀ tail ∈ tails, ∀ x ∈ tail,
              x.Within (· ∈ roster ++ heads.creations count) :=
            fun tail tailMember x member =>
              (tailsWithin tail tailMember x member).mono advances.subset
          have noneWithin : ∀ components ∈ ([] : List (List Object)), ∀ x ∈ components,
              x.Within (· ∈ roster ++ heads.creations count) := List.forall_mem_nil _
          rcases stepped : heads.step count with ⟨⟨head, rest⟩ | rest | _, count'⟩ <;>
            rw [stepped] at stepWithin
          · cases tails with
            | nil =>
                simp only [creations, Cursor.step, stepped, List.append_nil]
                exact ⟨stepWithin.2, tailsWithin', noneWithin⟩
            | cons tail others =>
                have tupleWithin : ∀ components ∈ (tail :: others).map (head :: ·),
                    ∀ x ∈ components, x.Within (· ∈ roster ++ heads.creations count) := by
                  intro components member x xMember
                  rcases List.mem_map.mp member with ⟨other, otherMember, rfl⟩
                  rcases List.mem_cons.mp xMember with rfl | inOther
                  · exact stepWithin.1
                  · exact tailsWithin' other otherMember x inOther
                simp only [creations, Cursor.step, stepped, ← List.append_assoc]
                refine ⟨within_tupleAt (tupleWithin _ List.mem_cons_self), ?_⟩
                exact Within.mono (List.prefix_append _ _).subset ⟨stepWithin.2, tailsWithin',
                  fun components member => tupleWithin components (List.mem_cons_of_mem _ member)⟩
          · simp only [creations, Cursor.step, stepped, List.append_nil]
            exact ⟨stepWithin, tailsWithin', noneWithin⟩
          · simp only [creations, Cursor.step, stepped]
            exact True.intro

theorem Within.pullWithin (steps : Nat) (within : cursor.Within (· ∈ roster)) :
    (cursor.pullWithin steps count).1.Within
      (· ∈ roster ++ cursor.creationsWithin false steps count) := by
  induction steps generalizing cursor count roster with
  | zero => exact True.intro
  | succ steps induction =>
      have stepWithin : (cursor.step count).1.Within (· ∈ roster ++ cursor.creations count) :=
        within.step
      rw [Cursor.pullWithin, creationsWithin, ← List.append_assoc]
      rcases stepped : cursor.step count with ⟨⟨x, rest⟩ | rest | _, count'⟩ <;>
        rw [stepped] at stepWithin
      · exact ⟨stepWithin.1.mono (List.prefix_append _ _).subset,
          stepWithin.2.mono (List.prefix_append _ _).subset⟩
      · exact induction stepWithin
      · exact True.intro

theorem Within.drainWithin (steps : Nat) (within : cursor.Within (· ∈ roster)) :
    ∀ x ∈ (cursor.drainWithin steps count).1,
      x.Within (· ∈ roster ++ cursor.creationsWithin true steps count) := by
  induction steps generalizing cursor count roster with
  | zero => exact List.forall_mem_nil _
  | succ steps induction =>
      have stepWithin : (cursor.step count).1.Within (· ∈ roster ++ cursor.creations count) :=
        within.step
      rw [Cursor.drainWithin, creationsWithin, ← List.append_assoc]
      rcases stepped : cursor.step count with ⟨⟨x, rest⟩ | rest | _, count'⟩ <;>
        rw [stepped] at stepWithin
      · intro y member
        rcases List.mem_cons.mp member with rfl | inOthers
        · exact stepWithin.1.mono (List.prefix_append _ _).subset
        · exact induction stepWithin.2 y inOthers
      · exact induction stepWithin
      · exact List.forall_mem_nil _

end Cursor

namespace Kernel

variable {roster : List Object}

/-- An operation that only creates objects. -/
theorem keeps_advance {α : Type} {action : Kernel α} (change : Nat → α × Nat)
    {result : List Object → α → Prop}
    (advances : ∀ store, outcome action store =
      (.ok (change store.created).1, { store with created := (change store.created).2 }))
    (kept : ∀ {present} store, roster <+: present →
      ∃ objects, Creates action store objects ∧
        result (present ++ objects) (change store.created).1) : Keeps roster action result := by
  intro store present le within
  rcases kept store le with ⟨objects, creates, returns⟩
  have within' := within.mono (List.prefix_append present objects).subset
  refine ⟨objects, creates, ?_, ?_⟩
  · rw [advances]
    exact ⟨within'.living, within'.members, within'.images⟩
  · rw [advances]
    intro a ok
    cases ok
    exact returns

theorem keeps_pull {cursor : Cursor} (within : cursor.Within (· ∈ roster)) :
    Keeps roster (pull cursor) fun later pulled => pulled.Within (· ∈ later) :=
  keeps_advance cursor.pull (fun _ => rfl) fun _ le => ⟨_, .pull, (within.mono le.subset).pullWithin _⟩

theorem keeps_drain {cursor : Cursor} (within : cursor.Within (· ∈ roster)) :
    Keeps roster (drain cursor) fun later objects => ∀ x ∈ objects, x.Within (· ∈ later) :=
  keeps_advance cursor.drain (fun _ => rfl) fun _ le => ⟨_, .drain, (within.mono le.subset).drainWithin _⟩

theorem keeps_take (number : Nat) {cursor : Cursor} (within : cursor.Within (· ∈ roster)) :
    Keeps roster (take number cursor) fun later taken =>
      (∀ x ∈ taken.1, x.Within (· ∈ later)) ∧ taken.2.Within (· ∈ later) := by
  induction number generalizing cursor roster with
  | zero => exact keeps_pure fun le => ⟨(fun _ member => nomatch member), within.mono le.subset⟩
  | succ number induction =>
      refine keeps_bind (keeps_pull within) ?_
      intro later pulled le pulledWithin
      cases pulled with
      | item x rest =>
          refine keeps_bind (induction pulledWithin.2) ?_
          rintro later' ⟨others, rest'⟩ le' ⟨othersWithin, restWithin⟩
          refine keeps_pure fun le'' => ⟨?_, restWithin.mono le''.subset⟩
          intro y member
          rcases List.mem_cons.mp member with rfl | inOthers
          · exact pulledWithin.1.mono (le'.trans le'').subset
          · exact (othersWithin y inOthers).mono le''.subset
      | finished =>
          exact keeps_pure fun _ =>
            ⟨(fun _ member => nomatch member), fun _ member => nomatch member⟩
      | stalled =>
          exact keeps_pure fun le' =>
            ⟨(fun _ member => nomatch member), within.mono (le.trans le').subset⟩

mutual

theorem keeps_enumerate : (set : Collection) → {roster : List Object} →
    Keeps roster (enumerate set) fun later cursor => cursor.Within (· ∈ later)
  | .plain id name, _ => by
      rw [enumerate]
      refine keeps_bind keeps_get ?_
      intro later store _ storeWithin
      exact keeps_pure fun le x member => (storeWithin.members id x member).mono le.subset
  | .number (.naturals id), _ => by
      rw [enumerate]
      exact keeps_pure fun _ => True.intro
  | .number (.rationals id n), _ => by
      rw [enumerate]
      · exact keeps_throw
      · exact fun _ isNaturals => nomatch isNaturals
  | .number (.reals id q n), _ => by
      rw [enumerate]
      · exact keeps_throw
      · exact fun _ isNaturals => nomatch isNaturals
  | .product id name [], _ => by
      rw [enumerate]
      exact keeps_throw
  | .product id name (first :: rest), _ => by
      rw [enumerate]
      split
      · refine keeps_bind (keeps_enumerateAll rest) ?_
        intro later columns _ columnsWithin
        refine keeps_bind (keeps_enumerate first) ?_
        intro later' heads le headsWithin
        refine keeps_pure fun le' =>
          ⟨headsWithin.mono le'.subset, ?_, fun _ member => nomatch member⟩
        intro tail isCombination x member
        obtain ⟨column, columnMember, inColumn⟩ := mem_of_mem_combinations isCombination member
        exact (columnsWithin column columnMember x inColumn).mono (le.trans le').subset
      · exact keeps_throw
  | .function id name domain range mapping, _ => by
      rw [enumerate]
      exact keeps_throw

theorem keeps_enumerateAll : (sets : List Collection) → {roster : List Object} →
    Keeps roster (enumerateAll sets) fun later columns =>
      ∀ column ∈ columns, ∀ x ∈ column, x.Within (· ∈ later)
  | [], _ => by
      rw [enumerateAll]
      exact keeps_pure fun _ _ member => nomatch member
  | set :: sets, _ => by
      rw [enumerateAll]
      refine keeps_bind (keeps_enumerate set) ?_
      intro later cursor _ cursorWithin
      refine keeps_bind (keeps_drain cursorWithin) ?_
      intro later' column _ columnWithin
      refine keeps_bind (keeps_enumerateAll sets) ?_
      intro later'' columns le columnsWithin
      refine keeps_pure fun le' other member => ?_
      rcases List.mem_cons.mp member with rfl | inColumns
      · exact fun x xMember => (columnWithin x xMember).mono (le.trans le').subset
      · exact fun x xMember => (columnsWithin other inColumns x xMember).mono le'.subset

end

end Kernel

/-! ## Schemas -/

theorem Proposition.Within.substitute {p : Proposition} {old new : Object}
    {roster renamings : List Object} {count : Nat} (within : p.Within (· ∈ roster))
    (newWithin : new.Within (· ∈ roster)) (introduces : p.Introduces old new count renamings) :
    (p.substitute old new count).1.Within (· ∈ roster ++ renamings) := by
  have advances := List.prefix_append roster renamings
  constructor
  · intro x member
    rcases introduces.mem_objects member with isOld | rfl | isRenamed
    · exact (within.1 x isOld).mono advances.subset
    · exact newWithin.mono advances.subset
    · rcases introduces.exists_renamed isRenamed with ⟨y, number, rfl⟩
      exact .intro (List.mem_append_right roster isRenamed) (.inl rfl)
        fun _ member => nomatch member
  · rw [sets_substitute]
    exact fun set member => (within.2 set member).mono advances.subset

theorem Slot.within_fill {among : Object → Prop} {parameter : String} {value : Argument}
    (valueWithin : value.Within among) {slots : List Slot}
    (within : ∀ slot ∈ slots, slot.Within among) :
    ∀ slot ∈ fill parameter value slots, slot.Within among := by
  induction slots with
  | nil => exact within
  | cons head tail induction =>
      have headWithin := within head List.mem_cons_self
      have tailWithin : ∀ slot ∈ tail, slot.Within among :=
        fun slot member => within slot (List.mem_cons_of_mem _ member)
      rw [fill]
      split
      · intro slot member
        rcases List.mem_cons.mp member with rfl | inTail
        · intro filled isFilled
          cases isFilled
          exact valueWithin
        · exact tailWithin slot inTail
      · intro slot member
        rcases List.mem_cons.mp member with rfl | inTail
        · exact headWithin
        · exact induction tailWithin slot inTail

namespace Schema.Within

open Inference (ok_of_bind)

variable {schema : Schema} {among : Object → Prop}

theorem objectAt (within : schema.Within among) {index : Nat} {x : Object}
    (ok : schema.objectAt index = .ok x) : x.Within among := by
  unfold Schema.objectAt at ok
  split at ok
  · rename_i parameter kind y found
    cases ok
    exact within.slots _ (List.mem_of_getElem? found) (.object x) rfl
  · cases ok
  · cases ok

theorem setAt (within : schema.Within among) {index : Nat} {set : Collection}
    (ok : schema.setAt index = .ok set) : set.Within among := by
  unfold Schema.setAt at ok
  split at ok
  · rename_i parameter kind set' found
    cases ok
    exact within.slots _ (List.mem_of_getElem? found) (.set set) rfl
  · cases ok
  · cases ok

theorem elementaryStatement {name : String} {slots : List Slot} {form : Form} {p : Proposition}
    (within : (Schema.elementary name slots form).Within among)
    (ok : Schema.elementaryStatement name slots form = .ok p) : p.Within among := by
  cases form with
  | generic =>
      cases ok
      have valuesWithin : ∀ value ∈ slots.filterMap Slot.value, value.Within among := by
        intro value member
        obtain ⟨slot, slotMember, isValue⟩ := List.mem_filterMap.mp member
        exact within slot slotMember value isValue
      constructor
      · intro x member
        obtain ⟨value, valueMember, inValue⟩ := List.mem_flatMap.mp member
        cases value with
        | object y =>
            cases List.mem_singleton.mp inValue
            exact valuesWithin _ valueMember
        | set set => cases inValue
      · intro set member
        obtain ⟨value, valueMember, inValue⟩ := List.mem_flatMap.mp member
        cases value with
        | object y => cases inValue
        | set set' =>
            cases List.mem_singleton.mp inValue
            exact valuesWithin _ valueMember
  | membership =>
      obtain ⟨x, isX, ok⟩ := ok_of_bind ok
      obtain ⟨set, isSet, ok⟩ := ok_of_bind ok
      cases ok
      simp [Proposition.Within, Proposition.objects, Proposition.sets, within.objectAt isX,
        within.setAt isSet]
  | ordering relation =>
      obtain ⟨x, isX, ok⟩ := ok_of_bind ok
      obtain ⟨y, isY, ok⟩ := ok_of_bind ok
      cases ok
      simp [Proposition.Within, Proposition.objects, Proposition.sets, within.objectAt isX,
        within.objectAt isY]
  | subset =>
      obtain ⟨x, isX, ok⟩ := ok_of_bind ok
      obtain ⟨a, isA, ok⟩ := ok_of_bind ok
      obtain ⟨b, isB, ok⟩ := ok_of_bind ok
      cases ok
      simp [Proposition.Within, Proposition.objects, Proposition.sets, within.objectAt isX,
        within.setAt isA, within.setAt isB]

theorem statement (within : schema.Within among) {p : Proposition}
    (ok : schema.statement = .ok p) : p.Within among := by
  induction schema generalizing p with
  | settled statement =>
      cases ok
      exact within
  | elementary name slots form => exact elementaryStatement within ok
  | binary name slots left connective right leftInduction rightInduction =>
      obtain ⟨_, _, ok⟩ := ok_of_bind ok
      obtain ⟨l, isLeft, ok⟩ := ok_of_bind ok
      obtain ⟨_, _, ok⟩ := ok_of_bind ok
      obtain ⟨r, isRight, ok⟩ := ok_of_bind ok
      cases ok
      exact Proposition.within_binary.mpr
        ⟨leftInduction within.2.1 isLeft, rightInduction within.2.2 isRight⟩
  | quantified name slots quantifier inner induction =>
      obtain ⟨x, isX, ok⟩ := ok_of_bind ok
      obtain ⟨_, _, ok⟩ := ok_of_bind ok
      obtain ⟨body, isBody, ok⟩ := ok_of_bind ok
      cases ok
      exact Proposition.within_quantified.mpr ⟨within.objectAt isX, induction within.2 isBody⟩

theorem refine (within : schema.Within among) {parameter : String} {bound : Except Fault Schema}
    {result : Schema} (boundWithin : ∀ {s}, bound = .ok s → s.Within among)
    (ok : schema.refine parameter bound = .ok result) : result.Within among := by
  unfold Schema.refine at ok
  split at ok
  · obtain ⟨s, isBound, settled⟩ := ok_of_bind ok
    unfold Schema.settle at settled
    split at settled
    · cases isStatement : s.statement with
      | error fault =>
          rw [isStatement] at settled
          cases settled
      | ok p =>
          rw [isStatement] at settled
          cases settled
          exact (boundWithin isBound).statement isStatement
    · cases settled
      exact boundWithin isBound
  · cases ok
    exact within

theorem bind (within : schema.Within among) {parameter : String} {value : Argument}
    (valueWithin : value.Within among) {result : Schema}
    (ok : schema.bind parameter value = .ok result) : result.Within among := by
  induction schema generalizing result with
  | settled statement => cases ok
  | elementary name slots form =>
      obtain ⟨_, _, ok⟩ := ok_of_bind ok
      cases ok
      exact Slot.within_fill valueWithin within
  | binary name slots left connective right leftInduction rightInduction =>
      obtain ⟨_, _, ok⟩ := ok_of_bind ok
      obtain ⟨left', isLeft, ok⟩ := ok_of_bind ok
      obtain ⟨right', isRight, ok⟩ := ok_of_bind ok
      cases ok
      exact ⟨Slot.within_fill valueWithin within.1,
        within.2.1.refine (leftInduction within.2.1) isLeft,
        within.2.2.refine (rightInduction within.2.2) isRight⟩
  | quantified name slots quantifier inner induction =>
      obtain ⟨_, _, ok⟩ := ok_of_bind ok
      obtain ⟨inner', isInner, ok⟩ := ok_of_bind ok
      cases ok
      exact ⟨Slot.within_fill valueWithin within.1,
        within.2.refine (induction within.2) isInner⟩

theorem bindAll (within : schema.Within among) {bindings : List (String × Argument)}
    (bindingsWithin : ∀ binding ∈ bindings, binding.2.Within among) {result : Schema}
    (ok : Schema.bindAll bindings schema = .ok result) : result.Within among := by
  induction bindings generalizing schema with
  | nil =>
      cases ok
      exact within
  | cons binding bindings induction =>
      obtain ⟨bound, isBound, ok⟩ := ok_of_bind ok
      exact induction (within.bind (bindingsWithin binding List.mem_cons_self) isBound)
        (fun other member => bindingsWithin other (List.mem_cons_of_mem _ member)) ok

end Schema.Within

/-! ## Certificates -/

namespace Kernel

variable {roster : List Object}

theorem keeps_substitute {p : Proposition} {old new : Object} (within : p.Within (· ∈ roster))
    (newWithin : new.Within (· ∈ roster)) :
    Keeps roster (substitute p old new) fun later result => result.Within (· ∈ later) := by
  refine keeps_advance (p.substitute old new) (fun _ => rfl) fun store le => ?_
  rcases p.exists_introduces old new store.created with ⟨renamings, introduces⟩
  exact ⟨renamings, .substitute introduces,
    (within.mono le.subset).substitute (newWithin.mono le.subset) introduces⟩

theorem keeps_certify {conclusion : Proposition} {premises : List Proof}
    (within : conclusion.Within (· ∈ roster)) (rule : Rule)
    (premisesWithin : ∀ premise ∈ premises, premise.Within (· ∈ roster)) :
    Keeps roster (certify conclusion rule premises) fun later proof =>
      proof.Within (· ∈ later) := by
  refine keeps_bind (keeps_report _) ?_
  intro later _ le _
  refine keeps_modifyGet (fun _ => rfl) fun le' within' => ?_
  refine ⟨⟨within'.living, within'.members, within'.images⟩, ?_⟩
  exact Proof.within_of_premises (within.mono (le.trans le').subset)
    fun premise member => (premisesWithin premise member).mono (le.trans le').subset

theorem keeps_conclude {attempt : Except Fault Proposition} {premises : List Proof}
    (within : ∀ {conclusion}, attempt = .ok conclusion → conclusion.Within (· ∈ roster))
    (rule : Rule) (premisesWithin : ∀ premise ∈ premises, premise.Within (· ∈ roster)) :
    Keeps roster (conclude attempt rule premises) fun later proof => proof.Within (· ∈ later) := by
  refine keeps_bind (keeps_liftExcept fun ok le => (within ok).mono le.subset) ?_
  intro later conclusion le conclusionWithin
  exact keeps_certify conclusionWithin rule
    fun premise member => (premisesWithin premise member).mono le.subset

theorem keeps_domain (bound : Object) : Keeps roster (domain bound) fun _ _ => True := by
  refine keeps_bind keeps_get ?_
  intro later store _ _
  exact keeps_liftExcept fun _ _ => True.intro

theorem keeps_restrict (rule : Rule) (x y : Object) :
    Keeps roster (restrict rule x y) fun _ _ => True := by
  refine keeps_bind (keeps_domain x) ?_
  intro later outer _ _
  cases outer with
  | none => exact keeps_pure fun _ => True.intro
  | some larger =>
      refine keeps_bind (keeps_domain y) ?_
      intro later' inner _ _
      cases inner with
      | none => exact keeps_throw
      | some smaller =>
          dsimp only
          split
          · exact keeps_pure fun _ => True.intro
          · exact keeps_throw

/-! ## Reductions -/

theorem keeps_postulate {statement : Proposition} (within : statement.Within (· ∈ roster)) :
    Keeps roster (postulate statement) fun later proof => proof.Within (· ∈ later) := by
  unfold postulate
  split
  · have bodyWithin := (Proposition.within_quantified.mp within).2
    refine keeps_bind (keeps_certify bodyWithin .postulate fun _ member => nomatch member) ?_
    intro later ofBody le ofBodyWithin
    refine keeps_certify (within.mono le.subset) .postulate fun premise member => ?_
    rw [List.mem_singleton.mp member]
    exact ofBodyWithin
  · exact keeps_certify within .postulate fun _ member => nomatch member

theorem keeps_reduce {schema : Schema} (within : schema.Within (· ∈ roster)) (assert : Bool) :
    Keeps roster (reduce schema assert) fun later reduction => reduction.Within (· ∈ later) := by
  refine keeps_bind (keeps_liftExcept fun ok le => (within.statement ok).mono le.subset) ?_
  intro later statement _ statementWithin
  refine keeps_bind (keeps_report _) ?_
  intro later' _ le _
  split
  · refine keeps_bind (keeps_postulate (statementWithin.mono le.subset)) ?_
    intro later'' proof _ proofWithin
    exact keeps_pure fun le' => proofWithin.mono le'.subset
  · exact keeps_pure fun le' => statementWithin.mono (le.trans le').subset

theorem keeps_applySchema {schema : Schema} (within : schema.Within (· ∈ roster))
    {bindings : Bindings}
    (bindingsWithin : ∀ binding ∈ bindings.present, binding.2.Within (· ∈ roster)) (assert : Bool) :
    Keeps roster (applySchema schema bindings assert) fun later reduction =>
      reduction.Within (· ∈ later) := by
  refine keeps_bind (keeps_reportAll _) ?_
  intro later _ le _
  refine keeps_bind (keeps_liftExcept fun ok le' =>
    (within.bindAll bindingsWithin ok).mono (le.trans le').subset) ?_
  intro later' bound _ boundWithin
  split
  · exact keeps_reduce boundWithin assert
  · exact keeps_pure fun le' => boundWithin.mono le'.subset

theorem keeps_applyReduction {reduction : Reduction} (within : reduction.Within (· ∈ roster))
    {bindings : Bindings}
    (bindingsWithin : ∀ binding ∈ bindings.present, binding.2.Within (· ∈ roster)) (assert : Bool) :
    Keeps roster (applyReduction reduction bindings assert) fun later result =>
      result.Within (· ∈ later) := by
  unfold applyReduction
  cases reduction with
  | unfinished schema => exact keeps_applySchema within bindingsWithin assert
  | complete statement =>
      dsimp only [Reduction.schema]
      split
      · exact keeps_pure fun le => Reduction.Within.mono le.subset within
      · exact keeps_throw
  | asserted proof =>
      dsimp only [Reduction.schema]
      split
      · exact keeps_pure fun le => Reduction.Within.mono le.subset within
      · exact keeps_throw

theorem keeps_assertedProof {reduction : Reduction} (within : reduction.Within (· ∈ roster)) :
    Keeps roster (assertedProof reduction) fun later proof => proof.Within (· ∈ later) := by
  cases reduction with
  | unfinished schema => exact keeps_throw
  | complete statement => exact keeps_throw
  | asserted proof => exact keeps_pure fun le => Proof.Within.mono le.subset within

theorem keeps_instantiate {schema : Schema} (within : schema.Within (· ∈ roster))
    {bindings : Bindings}
    (bindingsWithin : ∀ binding ∈ bindings.present, binding.2.Within (· ∈ roster)) :
    Keeps roster (instantiate schema bindings) fun later statement =>
      statement.Within (· ∈ later) := by
  refine keeps_bind (keeps_applySchema within bindingsWithin false) ?_
  intro later reduction _ reductionWithin
  cases reduction with
  | unfinished schema => exact keeps_throw
  | complete statement =>
      exact keeps_pure fun le => Proposition.Within.mono le.subset reductionWithin
  | asserted proof =>
      exact keeps_pure fun le => (Proof.Within.conclusion reductionWithin).mono le.subset

theorem keeps_assume {schema : Schema} (within : schema.Within (· ∈ roster)) {bindings : Bindings}
    (bindingsWithin : ∀ binding ∈ bindings.present, binding.2.Within (· ∈ roster)) :
    Keeps roster (assume schema bindings) fun later proof => proof.Within (· ∈ later) := by
  refine keeps_bind (keeps_applySchema within bindingsWithin true) ?_
  intro later reduction _ reductionWithin
  exact keeps_assertedProof reductionWithin

theorem keeps_proveMembership {statement : Proposition} (within : statement.Within (· ∈ roster)) :
    Keeps roster (proveMembership statement) fun later proof => proof.Within (· ∈ later) := by
  refine keeps_bind keeps_get ?_
  intro later store le _
  refine keeps_bind (keeps_liftExcept fun _ _ => True.intro) ?_
  intro later' _ le' _
  exact keeps_certify (within.mono (le.trans le').subset) .membership fun _ member => nomatch member

theorem keeps_proveOrdering {statement : Proposition} (within : statement.Within (· ∈ roster)) :
    Keeps roster (proveOrdering statement) fun later proof => proof.Within (· ∈ later) := by
  refine keeps_bind (keeps_liftExcept fun _ _ => True.intro) ?_
  intro later _ le _
  exact keeps_certify (within.mono le.subset) .ordering fun _ member => nomatch member

end Kernel

end Deduction
