import Deduction.Proofs.Update

/-! # Pulling

What a cursor hands out over successive pulls. A pull consists of steps, so what a step
keeps is kept by a pull and by any number of pulls. A cursor whose chain of heads ends in a
list comes to an end; one that counts does not. A pull returns unless heads go on for ever
and none of them has a tail. -/

namespace Deduction.Cursor

/-! ## Steps -/

/-- What a step can do, where a step for a new head depends on the step of the heads. -/
inductive Steps : Cursor → Nat → Step → Nat → Prop
  | listedEnd {created : Nat} : Steps (listed []) created .finished created
  | listedItem {x : Object} {rest : List Object} {created : Nat} :
      Steps (listed (x :: rest)) created (.item x (listed rest)) created
  | counted {set : SetId} {next created : Nat} :
      Steps (counting set next) created
        (.item (naturalAt set next created) (counting set (next + 1))) (created + 1)
  | pending {heads : Cursor} {tails pending : List (List Object)} {components : List Object}
      {created : Nat} :
      Steps (tuples heads tails (components :: pending)) created
        (.item (tupleAt components created) (tuples heads tails pending)) (created + 1)
  | headsEnd {heads : Cursor} {tails : List (List Object)} {created later : Nat} :
      Steps heads created .finished later → Steps (tuples heads tails []) created .finished later
  | headsSkip {heads rest : Cursor} {tails : List (List Object)} {created later : Nat} :
      Steps heads created (.skipped rest) later →
      Steps (tuples heads tails []) created (.skipped (tuples rest tails [])) later
  | barren {heads rest : Cursor} {x : Object} {created later : Nat} :
      Steps heads created (.item x rest) later →
      Steps (tuples heads [] []) created (.skipped (tuples rest [] [])) later
  | fruitful {heads rest : Cursor} {tail : List Object} {others : List (List Object)} {x : Object}
      {created later : Nat} :
      Steps heads created (.item x rest) later →
      Steps (tuples heads (tail :: others) []) created
        (.item (tupleAt (x :: tail) later)
          (tuples rest (tail :: others) (others.map (x :: ·)))) (later + 1)

theorem steps_step (cursor : Cursor) (created : Nat) :
    Steps cursor created (cursor.step created).1 (cursor.step created).2 := by
  induction cursor with
  | listed rest => cases rest <;> constructor
  | counting set next => constructor
  | tuples heads tails pending induction =>
      cases pending with
      | cons components pending => constructor
      | nil =>
          rcases stepped : heads.step created with ⟨⟨x, rest⟩ | rest | _, later⟩
          · rw [stepped] at induction
            cases tails with
            | nil => simpa only [step, stepped] using Steps.barren induction
            | cons tail others => simpa only [step, stepped] using Steps.fruitful induction
          · rw [stepped] at induction
            simpa only [step, stepped] using Steps.headsSkip induction
          · rw [stepped] at induction
            simpa only [step, stepped] using Steps.headsEnd induction

theorem Steps.step_eq {cursor : Cursor} {created later : Nat} {step : Step}
    (steps : Steps cursor created step later) : cursor.step created = (step, later) := by
  induction steps with
  | listedEnd | listedItem | counted | pending => rfl
  | headsEnd _ induction | headsSkip _ induction | barren _ induction | fruitful _ induction =>
      simp only [Cursor.step, induction]

theorem Steps.of_eq {cursor : Cursor} {created later : Nat} {step : Step}
    (stepped : cursor.step created = (step, later)) : Steps cursor created step later := by
  have steps := cursor.steps_step created
  rwa [stepped] at steps

def Step.rest : Step → Option Cursor
  | item _ rest => some rest
  | skipped rest => some rest
  | finished => none

/-! ## Ends

The chain of heads ends in a list or in numbers. In the first case the cursor has a number
of objects left. -/

def IsBounded : Cursor → Prop
  | listed _ => True
  | counting _ _ => False
  | tuples heads _ _ => heads.IsBounded

def remaining : Cursor → Nat
  | listed rest => rest.length
  | counting _ _ => 0
  | tuples heads tails pending => pending.length + heads.remaining * tails.length

def Step.remaining : Step → Nat
  | item _ rest => rest.remaining + 1
  | skipped rest => rest.remaining
  | finished => 0

def Pull.remaining : Pull → Nat
  | item _ rest => rest.remaining + 1
  | finished => 0
  | stalled => 0

/-- Where heads go on for ever, there are tails. -/
def IsProductive : Cursor → Prop
  | listed _ => True
  | counting _ _ => True
  | tuples heads tails _ => heads.IsProductive ∧ (tails = [] → heads.IsBounded)

/-- No object is left over, and heads without tails go on for ever. -/
def Stalls : Cursor → Prop
  | listed _ => False
  | counting _ _ => False
  | tuples heads tails pending =>
      pending = [] ∧ (heads.Stalls ∨ tails = [] ∧ ¬heads.IsBounded)

theorem IsBounded.isProductive {cursor : Cursor} (bounded : cursor.IsBounded) :
    cursor.IsProductive := by
  induction cursor with
  | listed rest => trivial
  | counting set next => trivial
  | tuples heads tails pending induction => exact ⟨induction bounded, fun _ => bounded⟩

namespace Steps

variable {cursor rest : Cursor} {created later : Nat} {step : Step}

theorem isBounded_iff (steps : Steps cursor created step later) (isRest : step.rest = some rest) :
    rest.IsBounded ↔ cursor.IsBounded := by
  induction steps generalizing rest with
  | listedEnd => cases isRest
  | headsEnd => cases isRest
  | listedItem | counted | pending =>
      cases isRest
      exact Iff.rfl
  | headsSkip _ induction | barren _ induction | fruitful _ induction =>
      cases isRest
      have ofHeads := induction rfl
      exact ofHeads

theorem isProductive_iff (steps : Steps cursor created step later)
    (isRest : step.rest = some rest) : rest.IsProductive ↔ cursor.IsProductive := by
  induction steps generalizing rest with
  | listedEnd => cases isRest
  | headsEnd => cases isRest
  | listedItem | counted | pending =>
      cases isRest
      exact Iff.rfl
  | headsSkip steps induction | barren steps induction | fruitful steps induction =>
      cases isRest
      simp only [IsProductive, induction rfl, steps.isBounded_iff rfl]

/-- A cursor that comes to an end gets nearer to it with every step. -/
theorem effort_lt (steps : Steps cursor created step later) (isRest : step.rest = some rest)
    (bounded : cursor.IsBounded) : rest.effort < cursor.effort := by
  induction steps generalizing rest with
  | listedEnd => cases isRest
  | headsEnd => cases isRest
  | counted => cases bounded
  | listedItem | pending =>
      cases isRest
      simp [effort]
  | headsSkip _ induction | barren _ induction =>
      cases isRest
      have lower := induction rfl bounded
      simpa [effort] using lower
  | @fruitful heads restHeads tail others x created later _ induction =>
      cases isRest
      have lower : restHeads.effort + 1 ≤ heads.effort := induction rfl bounded
      have scaled := Nat.mul_le_mul_right (others.length + 1 + 1) lower
      simp only [effort, List.length_map, List.length_cons, List.length_nil] at scaled ⊢
      rw [Nat.add_mul] at scaled
      omega

/-- Heads are passed over only as long as there is a way to go. -/
theorem effort_lt_of_skipped (steps : Steps cursor created (.skipped rest) later)
    (productive : cursor.IsProductive) : rest.effort < cursor.effort := by
  generalize isStep : Step.skipped rest = step at steps
  induction steps generalizing rest with
  | listedEnd | listedItem | counted | pending | headsEnd | fruitful => cases isStep
  | headsSkip _ induction =>
      cases isStep
      have lower := induction productive.1 rfl
      simpa [effort] using lower
  | barren steps _ =>
      cases isStep
      have lower := steps.effort_lt rfl (productive.2 rfl)
      simpa [effort] using lower

theorem remaining_eq (steps : Steps cursor created step later) (bounded : cursor.IsBounded) :
    cursor.remaining = step.remaining := by
  induction steps with
  | counted => cases bounded
  | listedEnd => rfl
  | listedItem => rfl
  | pending => simp [remaining, Step.remaining, Nat.add_right_comm]
  | headsEnd _ induction =>
      have isNone := induction bounded
      simp [remaining, Step.remaining, isNone]
  | headsSkip _ induction =>
      have same := induction bounded
      simp [remaining, Step.remaining, same]
  | barren _ _ => simp [remaining, Step.remaining]
  | fruitful _ induction =>
      have one := induction bounded
      simp only [remaining, Step.remaining, List.length_map, List.length_cons, List.length_nil]
        at one ⊢
      rw [one, Nat.add_mul]
      omega

theorem not_finished_of_unbounded (steps : Steps cursor created step later)
    (unbounded : ¬cursor.IsBounded) : step ≠ .finished := by
  induction steps with
  | listedEnd => exact absurd trivial unbounded
  | headsEnd _ induction => exact absurd rfl (induction unbounded)
  | listedItem | counted | pending | headsSkip | barren | fruitful => simp

/-- A cursor that stalls passes over a head and still stalls. -/
theorem stalls (steps : Steps cursor created step later) (stalls : cursor.Stalls) :
    ∃ rest, step = .skipped rest ∧ rest.Stalls := by
  induction steps with
  | listedEnd | listedItem | counted => cases stalls
  | pending => cases stalls.1
  | headsEnd steps induction =>
      rcases stalls.2 with ofHeads | ⟨_, unbounded⟩
      · rcases induction ofHeads with ⟨_, isSkipped, _⟩
        cases isSkipped
      · exact absurd rfl (steps.not_finished_of_unbounded unbounded)
  | headsSkip steps induction =>
      refine ⟨_, rfl, rfl, ?_⟩
      rcases stalls.2 with ofHeads | ⟨noTails, unbounded⟩
      · rcases induction ofHeads with ⟨_, isSkipped, still⟩
        cases isSkipped
        exact .inl still
      · exact .inr ⟨noTails, mt (steps.isBounded_iff rfl).mp unbounded⟩
  | barren steps induction =>
      refine ⟨_, rfl, rfl, .inr ⟨rfl, ?_⟩⟩
      rcases stalls.2 with ofHeads | ⟨_, unbounded⟩
      · rcases induction ofHeads with ⟨_, isSkipped, _⟩
        cases isSkipped
      · exact mt (steps.isBounded_iff rfl).mp unbounded
  | fruitful steps induction =>
      rcases stalls.2 with ofHeads | ⟨noTails, _⟩
      · rcases induction ofHeads with ⟨_, isSkipped, _⟩
        cases isSkipped
      · cases noTails

end Steps

/-! ## Pulls -/

/-- A pull consists of steps that pass over heads and of one that does not. -/
inductive Pulls : Cursor → Nat → Pull → Nat → Prop
  | item {cursor rest : Cursor} {created later : Nat} {x : Object} :
      Steps cursor created (.item x rest) later → Pulls cursor created (.item x rest) later
  | finished {cursor : Cursor} {created later : Nat} :
      Steps cursor created .finished later → Pulls cursor created .finished later
  | skipped {cursor rest : Cursor} {created later last : Nat} {result : Pull} :
      Steps cursor created (.skipped rest) later → Pulls rest later result last →
      Pulls cursor created result last

namespace Pulls

variable {cursor rest heads : Cursor} {created later steps : Nat} {result : Pull} {x : Object}

theorem of_pullWithin (pulled : pullWithin steps cursor created = (result, later))
    (returned : result ≠ .stalled) : Pulls cursor created result later := by
  induction steps generalizing cursor created with
  | zero =>
      cases pulled
      exact absurd rfl returned
  | succ steps induction =>
      rw [pullWithin] at pulled
      rcases stepped : cursor.step created with ⟨⟨y, rest⟩ | rest | _, next⟩ <;>
        rw [stepped] at pulled
      · cases pulled
        exact .item (.of_eq stepped)
      · exact .skipped (.of_eq stepped) (induction pulled)
      · cases pulled
        exact .finished (.of_eq stepped)

theorem returns (pulls : Pulls cursor created result later) : result ≠ .stalled := by
  induction pulls with
  | item | finished => simp
  | skipped _ _ induction => exact induction

theorem of_pull (pulled : cursor.pull created = (result, later)) (returned : result ≠ .stalled) :
    Pulls cursor created result later :=
  of_pullWithin pulled returned

theorem pullWithin_eq (pulls : Pulls cursor created result later) (productive : cursor.IsProductive)
    (enough : cursor.effort < steps) : pullWithin steps cursor created = (result, later) := by
  induction pulls generalizing steps with
  | item stepped | finished stepped =>
      cases steps with
      | zero => cases enough
      | succ steps => simp only [pullWithin, stepped.step_eq]
  | skipped stepped _ induction =>
      cases steps with
      | zero => cases enough
      | succ steps =>
          have lower := stepped.effort_lt_of_skipped productive
          have still := (stepped.isProductive_iff rfl).mpr productive
          simp only [pullWithin, stepped.step_eq]
          exact induction still (by omega)

/-- What a step keeps is kept by a pull. -/
theorem invariant {holds : Cursor → Prop}
    (kept : ∀ {cursor rest created later step}, Steps cursor created step later →
      step.rest = some rest → (holds rest ↔ holds cursor))
    (pulls : Pulls cursor created (.item x rest) later) : holds rest ↔ holds cursor := by
  generalize isItem : Pull.item x rest = result at pulls
  induction pulls with
  | item steps =>
      cases isItem
      exact kept steps rfl
  | finished => cases isItem
  | skipped steps _ induction => rw [induction isItem, kept steps rfl]

theorem isBounded_iff (pulls : Pulls cursor created (.item x rest) later) :
    rest.IsBounded ↔ cursor.IsBounded :=
  pulls.invariant Steps.isBounded_iff

theorem isProductive_iff (pulls : Pulls cursor created (.item x rest) later) :
    rest.IsProductive ↔ cursor.IsProductive :=
  pulls.invariant Steps.isProductive_iff

theorem remaining_eq (pulls : Pulls cursor created result later) (bounded : cursor.IsBounded) :
    cursor.remaining = result.remaining := by
  induction pulls with
  | item steps => exact steps.remaining_eq bounded
  | finished steps => exact steps.remaining_eq bounded
  | skipped steps _ induction =>
      rw [steps.remaining_eq bounded]
      exact induction ((steps.isBounded_iff rfl).mpr bounded)

theorem not_finished_of_unbounded (pulls : Pulls cursor created result later)
    (unbounded : ¬cursor.IsBounded) : result ≠ .finished := by
  induction pulls with
  | item => simp
  | finished steps => exact absurd rfl (steps.not_finished_of_unbounded unbounded)
  | skipped steps _ induction => exact induction (mt (steps.isBounded_iff rfl).mp unbounded)

/-- A tuple is one left over, or the first of a new head. -/
theorem of_tuples_item {tails pending : List (List Object)}
    (pulls : Pulls (tuples heads tails pending) created (.item x rest) later) :
    (∃ components others, pending = components :: others ∧ x = tupleAt components created ∧
      rest = tuples heads tails others ∧ later = created + 1) ∨
    pending = [] ∧ ∃ tail others head restHeads last, tails = tail :: others ∧
      Pulls heads created (.item head restHeads) last ∧ x = tupleAt (head :: tail) last ∧
      rest = tuples restHeads tails (others.map (head :: ·)) ∧ later = last + 1 := by
  generalize isCursor : tuples heads tails pending = cursor at pulls
  generalize isItem : Pull.item x rest = result at pulls
  induction pulls generalizing heads pending with
  | finished => cases isItem
  | item steps =>
      cases isItem
      cases isCursor
      cases steps with
      | pending => exact .inl ⟨_, _, rfl, rfl, rfl, rfl⟩
      | fruitful steps => exact .inr ⟨rfl, _, _, _, _, _, rfl, .item steps, rfl, rfl, rfl⟩
  | skipped steps _ induction =>
      cases isCursor
      cases steps with
      | headsSkip steps =>
          rcases induction rfl isItem with
            ⟨_, _, isPending, _⟩ | ⟨_, tail, others, head, restHeads, last, isTails, pulls, found⟩
          · cases isPending
          · exact .inr ⟨rfl, tail, others, head, restHeads, last, isTails,
              .skipped steps pulls, found⟩
      | barren steps =>
          rcases induction rfl isItem with ⟨_, _, isPending, _⟩ | ⟨_, _, _, _, _, _, isTails, _⟩
          · cases isPending
          · cases isTails

theorem of_tuples_finished {tail : List Object} {others pending : List (List Object)}
    (pulls : Pulls (tuples heads (tail :: others) pending) created .finished later) :
    pending = [] ∧ Pulls heads created .finished later := by
  generalize isCursor : tuples heads (tail :: others) pending = cursor at pulls
  generalize isFinished : Pull.finished = result at pulls
  induction pulls generalizing heads pending with
  | item => cases isFinished
  | finished steps =>
      cases isCursor
      cases steps with
      | headsEnd steps => exact ⟨rfl, .finished steps⟩
  | skipped steps _ induction =>
      cases isCursor
      cases steps with
      | headsSkip steps => exact ⟨rfl, .skipped steps (induction rfl isFinished).2⟩

end Pulls

theorem IsProductive.exists_pulls {cursor : Cursor} (productive : cursor.IsProductive)
    (created : Nat) : ∃ result later, Pulls cursor created result later := by
  rcases stepped : cursor.step created with ⟨⟨x, rest⟩ | rest | _, later⟩
  · exact ⟨_, _, .item (.of_eq stepped)⟩
  · have steps := Steps.of_eq stepped
    have lower := steps.effort_lt_of_skipped productive
    rcases exists_pulls ((steps.isProductive_iff rfl).mpr productive) later with
      ⟨result, last, pulls⟩
    exact ⟨result, last, .skipped steps pulls⟩
  · exact ⟨_, _, .finished (.of_eq stepped)⟩
termination_by cursor.effort

theorem IsProductive.pull_eq {cursor : Cursor} {created later : Nat} {result : Pull}
    (productive : cursor.IsProductive) (pulls : Pulls cursor created result later) :
    cursor.pull created = (result, later) :=
  pulls.pullWithin_eq productive (Nat.lt_succ_self _)

/-- No number of steps is enough for a cursor that stalls. -/
theorem Stalls.pullWithin {cursor : Cursor} (stalls : cursor.Stalls) (steps created : Nat) :
    (pullWithin steps cursor created).1 = .stalled := by
  induction steps generalizing cursor created with
  | zero => rfl
  | succ steps induction =>
      rcases (cursor.steps_step created).stalls stalls with ⟨rest, isSkipped, still⟩
      rw [Cursor.pullWithin]
      rcases stepped : cursor.step created with ⟨step, later⟩
      rw [stepped] at isSkipped
      cases isSkipped
      exact induction still later

/-! ## Successive pulls

Between two pulls other objects may be created, so each pull of a log has its own count of
objects created before. -/

structure Pulled where
  before : Nat
  object : Object
  after : Nat

inductive Gives : Cursor → List Pulled → Cursor → Prop
  | nil {cursor : Cursor} : Gives cursor [] cursor
  | cons {cursor next rest : Cursor} {before after : Nat} {x : Object} {log : List Pulled} :
      cursor.pull before = (.item x next, after) → Gives next log rest →
      Gives cursor (⟨before, x, after⟩ :: log) rest

/-- How many objects the pulls of a log created. -/
def made : List Pulled → Nat
  | [] => 0
  | pulled :: log => pulled.after - pulled.before + made log

/-- Pulls give these objects and then find the end. -/
def Yields (cursor : Cursor) (objects : List Object) : Prop :=
  ∃ log rest created later, cursor.Gives log rest ∧ rest.pull created = (.finished, later) ∧
    objects = log.map Pulled.object

namespace Gives

variable {cursor rest heads : Cursor} {log : List Pulled}

theorem invariant {holds : Cursor → Prop}
    (kept : ∀ {cursor rest created later step}, Steps cursor created step later →
      step.rest = some rest → (holds rest ↔ holds cursor))
    (gives : cursor.Gives log rest) : holds rest ↔ holds cursor := by
  induction gives with
  | nil => exact Iff.rfl
  | cons pulled _ induction => rw [induction, (Pulls.of_pull pulled (by simp)).invariant kept]

theorem isBounded_iff (gives : cursor.Gives log rest) : rest.IsBounded ↔ cursor.IsBounded :=
  gives.invariant Steps.isBounded_iff

theorem isProductive_iff (gives : cursor.Gives log rest) :
    rest.IsProductive ↔ cursor.IsProductive :=
  gives.invariant Steps.isProductive_iff

theorem remaining_eq (gives : cursor.Gives log rest) (bounded : cursor.IsBounded) :
    cursor.remaining = log.length + rest.remaining := by
  induction gives with
  | nil => simp
  | cons pulled _ induction =>
      have pulls := Pulls.of_pull pulled (by simp)
      rw [pulls.remaining_eq bounded, Pull.remaining, induction (pulls.isBounded_iff.mpr bounded),
        List.length_cons]
      omega

/-- What was handed out and what is left over are the tuples of the heads so far. -/
theorem of_tuples {tail : List Object} {others pending : List (List Object)}
    (productive : heads.IsProductive)
    (gives : (tuples heads (tail :: others) pending).Gives log rest) :
    ∃ headLog restHeads left, rest = tuples restHeads (tail :: others) left ∧
      heads.Gives headLog restHeads ∧
      log.map (·.object.components) ++ left =
        pending ++ headLog.flatMap (fun head => (tail :: others).map (head.object :: ·)) ∧
      made log = log.length + made headLog ∧
      (∀ pulled ∈ log, pulled.object = ⟨pulled.after, tupleName pulled.object.components, none,
        pulled.object.components⟩) ∧
      (pending.length ≤ others.length → left.length ≤ others.length) := by
  generalize isCursor : tuples heads (tail :: others) pending = cursor at gives
  induction gives generalizing heads pending with
  | nil => exact ⟨[], heads, pending, isCursor.symm, .nil, by simp, rfl, by simp, id⟩
  | @cons cursor next rest before after x log pulled _ induction =>
      subst isCursor
      have pulls := Pulls.of_pull pulled (by simp)
      rcases pulls.of_tuples_item with
        ⟨components, left, rfl, rfl, rfl, rfl⟩ | ⟨rfl, _, _, head, restHeads, last, isTails,
          pullsHead, rfl, rfl, rfl⟩
      · rcases induction productive rfl with
          ⟨headLog, restHeads, left, isRest, givesHeads, conserved, cost, areTuples, short⟩
        refine ⟨headLog, restHeads, left, isRest, givesHeads, ?_, ?_, ?_, ?_⟩
        · simp [tupleAt, conserved]
        · simp only [made, List.length_cons] at cost ⊢
          omega
        · simpa [tupleAt] using areTuples
        · intro bound
          rw [List.length_cons] at bound
          exact short (by omega)
      · cases isTails
        rcases induction (pullsHead.isProductive_iff.mpr productive) rfl with
          ⟨headLog, restHeads, left, isRest, givesHeads, conserved, cost, areTuples, short⟩
        refine ⟨⟨before, head, last⟩ :: headLog, restHeads, left, isRest,
          .cons (productive.pull_eq pullsHead) givesHeads, ?_, ?_, ?_, ?_⟩
        · simp [tupleAt, conserved]
        · have grown := le_pullWithin (heads.effort + 1) heads before
          rw [pullsHead.pullWithin_eq productive (Nat.lt_succ_self _)] at grown
          simp only [made, List.length_cons] at cost grown ⊢
          omega
        · simpa [tupleAt] using areTuples
        · intro _
          exact short (by simp)

end Gives

theorem Yields.cons {cursor next : Cursor} {before after : Nat} {x : Object}
    {objects : List Object} (pulled : cursor.pull before = (.item x next, after))
    (yields : next.Yields objects) : cursor.Yields (x :: objects) := by
  rcases yields with ⟨log, rest, created, later, gives, ended, rfl⟩
  exact ⟨_, rest, created, later, .cons pulled gives, ended, rfl⟩

theorem Yields.length_eq {cursor : Cursor} {objects : List Object} (yields : cursor.Yields objects)
    (bounded : cursor.IsBounded) : objects.length = cursor.remaining := by
  rcases yields with ⟨log, rest, created, later, gives, ended, rfl⟩
  have isLast := (Pulls.of_pull ended (by simp)).remaining_eq (gives.isBounded_iff.mpr bounded)
  rw [gives.remaining_eq bounded, isLast, Pull.remaining, List.length_map, Nat.add_zero]

/-! ## Enumerations that end -/

/-- Whatever is created in between, just so many pulls give an object. -/
def Lasts (cursor : Cursor) (total : Nat) : Prop :=
  ∀ log rest, cursor.Gives log rest → log.length ≤ total ∧ ∀ created,
    (log.length < total → ∃ x next later, rest.pull created = (.item x next, later)) ∧
    (log.length = total → ∃ later, rest.pull created = (.finished, later))

namespace IsBounded

variable {cursor heads : Cursor}

theorem lasts (bounded : cursor.IsBounded) : cursor.Lasts cursor.remaining := by
  intro log rest gives
  have still := gives.isBounded_iff.mpr bounded
  have counted := gives.remaining_eq bounded
  refine ⟨by omega, fun created => ?_⟩
  rcases still.isProductive.exists_pulls created with ⟨⟨x, next⟩ | _ | _, later, pulls⟩
  · refine ⟨fun _ => ⟨x, next, later, still.isProductive.pull_eq pulls⟩, fun isTotal => ?_⟩
    have some := pulls.remaining_eq still
    rw [Pull.remaining] at some
    omega
  · refine ⟨fun isLess => ?_, fun _ => ⟨later, still.isProductive.pull_eq pulls⟩⟩
    have none := pulls.remaining_eq still
    rw [Pull.remaining] at none
    omega
  · exact absurd rfl pulls.returns

theorem pulls_drainWithin {steps : Nat} (bounded : cursor.IsBounded)
    (enough : cursor.effort ≤ steps) (created : Nat) :
    (∃ later, Pulls cursor created .finished later ∧ (drainWithin steps cursor created).1 = []) ∨
    ∃ x rest later objects, Pulls cursor created (.item x rest) later ∧
      (drainWithin steps cursor created).1 = x :: objects ∧ rest.Yields objects := by
  induction steps generalizing cursor created with
  | zero =>
      -- There is no way to go, so the next step is the last.
      have steps := cursor.steps_step created
      rcases stepped : cursor.step created with ⟨⟨x, rest⟩ | rest | _, later⟩ <;>
        rw [stepped] at steps
      · exact absurd (steps.effort_lt rfl bounded) (by omega)
      · exact absurd (steps.effort_lt rfl bounded) (by omega)
      · exact .inl ⟨later, .finished steps, rfl⟩
  | succ number induction =>
      have steps := cursor.steps_step created
      rcases stepped : cursor.step created with ⟨⟨x, rest⟩ | rest | _, later⟩ <;>
        rw [stepped] at steps
      · have lower := steps.effort_lt rfl bounded
        have still := (steps.isBounded_iff rfl).mpr bounded
        refine .inr ⟨x, rest, later, (drainWithin number rest later).1, .item steps,
          by simp only [drainWithin, stepped], ?_⟩
        rcases induction still (by omega) later with
          ⟨last, pulls, isNil⟩ | ⟨y, next, last, objects, pulls, isCons, yields⟩
        · rw [isNil]
          exact ⟨[], rest, later, last, .nil, still.isProductive.pull_eq pulls, rfl⟩
        · rw [isCons]
          exact yields.cons (still.isProductive.pull_eq pulls)
      · have lower := steps.effort_lt rfl bounded
        have still := (steps.isBounded_iff rfl).mpr bounded
        simp only [drainWithin, stepped]
        rcases induction still (by omega) later with
          ⟨last, pulls, isNil⟩ | ⟨y, next, last, objects, pulls, isCons, yields⟩
        · exact .inl ⟨last, .skipped steps pulls, isNil⟩
        · exact .inr ⟨y, next, last, objects, .skipped steps pulls, isCons, yields⟩
      · exact .inl ⟨later, .finished steps, by simp only [drainWithin, stepped]⟩

theorem yields_drain (bounded : cursor.IsBounded) (created : Nat) :
    cursor.Yields (cursor.drain created).1 := by
  rw [drain]
  rcases bounded.pulls_drainWithin (Nat.le_refl _) created with
    ⟨later, pulls, isNil⟩ | ⟨x, rest, later, objects, pulls, isCons, yields⟩
  · rw [isNil]
    exact ⟨[], cursor, created, later, .nil, bounded.isProductive.pull_eq pulls, rfl⟩
  · rw [isCons]
    exact yields.cons (bounded.isProductive.pull_eq pulls)

end IsBounded

theorem Gives.of_listed {rest : Cursor} {objects : List Object} {log : List Pulled}
    (gives : (listed objects).Gives log rest) :
    ∃ left, rest = listed left ∧ objects = log.map Pulled.object ++ left := by
  generalize isCursor : listed objects = cursor at gives
  induction gives generalizing objects with
  | nil => exact ⟨objects, isCursor.symm, rfl⟩
  | cons pulled _ induction =>
      subst isCursor
      cases Pulls.of_pull pulled (by simp) with
      | item steps =>
          cases steps
          rcases induction rfl with ⟨left, isRest, split⟩
          exact ⟨left, isRest, by simp [split]⟩
      | skipped steps _ => cases steps

theorem Yields.of_listed {members objects : List Object}
    (yields : (listed members).Yields objects) : objects = members := by
  rcases yields with ⟨log, rest, created, later, gives, ended, rfl⟩
  rcases gives.of_listed with ⟨left, rfl, split⟩
  cases Pulls.of_pull ended (by simp) with
  | finished steps =>
      cases steps
      rw [split, List.append_nil]
  | skipped steps _ => cases steps

/-- The tuples of a product come from an enumeration of its heads. -/
theorem Yields.of_tuples {heads : Cursor} {tails : List (List Object)} {objects : List Object}
    (bounded : heads.IsBounded) (yields : (tuples heads tails []).Yields objects) :
    ∃ headObjects, heads.Yields headObjects ∧
      objects.map Object.components =
        headObjects.flatMap (fun head => tails.map (head :: ·)) ∧
      ∀ x ∈ objects, x.name = tupleName x.components ∧ x.owner = none := by
  cases tails with
  | nil =>
      have isEmpty : objects = [] := by simpa [remaining] using yields.length_eq bounded
      subst isEmpty
      exact ⟨_, bounded.yields_drain 0, by simp, by simp⟩
  | cons tail others =>
      rcases yields with ⟨log, rest, created, later, gives, ended, rfl⟩
      rcases gives.of_tuples bounded.isProductive with
        ⟨headLog, restHeads, left, rfl, givesHeads, conserved, _, areTuples, _⟩
      rcases (Pulls.of_pull ended (by simp)).of_tuples_finished with ⟨rfl, pullsEnd⟩
      have still := givesHeads.isProductive_iff.mpr bounded.isProductive
      refine ⟨headLog.map Pulled.object,
        ⟨headLog, restHeads, created, later, givesHeads, still.pull_eq pullsEnd, rfl⟩, ?_, ?_⟩
      · simpa [List.flatMap_map, Function.comp_def] using conserved
      · intro x member
        rcases List.mem_map.mp member with ⟨pulled, inLog, rfl⟩
        rw [areTuples pulled inLog]
        exact ⟨rfl, rfl⟩

end Deduction.Cursor
