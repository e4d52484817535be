import Nais.Lib.Run
import Nais.Lib.Stock
import Nais.Board.Nais

/-!
# The pool of sync objects

`oslib/osi_riot.c` where `MALLOC_SL_OBJECTS` is not defined. A sync object or a lock is the
number of a mutex, and one lifo of RIOT keeps the numbers that are free for both.
-/

namespace Nais.Board.SyncPool

open Nais.Lib Nais.Lib.Run

def MAX_SYNC_OBJS : ℕ := 64

/-- The mutexes of RIOT, and its lifo in an array for the numbers below `size`: it is a stack
while no number is inserted that it has already. -/
structure Riot (size : ℕ) where
  Mutex : Type
  mutexInit : Mutex
  Lifo : Type
  lifoInit : Lifo
  lifoInsert : Lifo → ℤ → Lifo
  lifoGet : Lifo → ℤ × Lifo
  /-- what the lifo holds, the last number that came in first -/
  stack : Lifo → List ℤ
  stack_init : stack lifoInit = []
  stack_insert : ∀ lifo (i : ℕ), i < size → (i : ℤ) ∉ stack lifo →
    stack (lifoInsert lifo i) = (i : ℤ) :: stack lifo
  get_nil : ∀ lifo, stack lifo = [] → (lifoGet lifo).1 = -1 ∧ stack (lifoGet lifo).2 = []
  get_cons : ∀ lifo id rest, stack lifo = id :: rest →
    (lifoGet lifo).1 = id ∧ stack (lifoGet lifo).2 = rest

inductive OsiReturnVal where
  | ok
  | invalidParams
  deriving DecidableEq

structure Pool (riot : Riot MAX_SYNC_OBJS) where
  synchronizer : riot.Lifo
  osiMutexes : Fin MAX_SYNC_OBJS → riot.Mutex

/-- What a call returns, what it stores where its argument points to, and the pool it leaves. -/
structure Outcome (riot : Riot MAX_SYNC_OBJS) where
  ret : OsiReturnVal
  stored : Option ℤ
  pool : Pool riot

variable {riot : Riot MAX_SYNC_OBJS}

def Outcome.handedOut (outcome : Outcome riot) : Option ℤ :=
  if outcome.ret = .ok then outcome.stored else none

namespace Pool

variable (pool : Pool riot)

/-- The turn of the loop of `init_sync_pool` for `i`. -/
def initSyncObj (i : Fin MAX_SYNC_OBJS) : Pool riot where
  synchronizer := riot.lifoInsert pool.synchronizer i.val
  osiMutexes := Function.update pool.osiMutexes i riot.mutexInit

def initSyncPool : Pool riot :=
  (List.finRange MAX_SYNC_OBJS).foldl initSyncObj { pool with synchronizer := riot.lifoInit }

/-- `mutex_init(&osi_mutexes[id])`. -/
def mutexInit (id : ℤ) : Except Fault (Pool riot) :=
  if h : 0 ≤ id ∧ id.toNat < MAX_SYNC_OBJS then
    .ok { pool with osiMutexes := Function.update pool.osiMutexes ⟨id.toNat, h.2⟩ riot.mutexInit }
  else .error .tableIndex

def objCreate (null : Bool) : Outcome riot :=
  if null then ⟨.invalidParams, none, pool⟩
  else
    let (id, synchronizer) := riot.lifoGet pool.synchronizer
    ⟨.ok, some id, { pool with synchronizer := synchronizer }⟩

def objDelete (id : ℤ) : Except Fault (Outcome riot) := do
  let pool ← pool.mutexInit id
  .ok ⟨.ok, none, { pool with synchronizer := riot.lifoInsert pool.synchronizer id }⟩

def osiSyncObjCreate (null : Bool) : Outcome riot := pool.objCreate null

def osiLockObjCreate (null : Bool) : Outcome riot := pool.objCreate null

/-- The argument is `NULL` or points to a number. -/
def osiSyncObjDelete : Option ℤ → Except Fault (Outcome riot)
  | none => .ok ⟨.invalidParams, none, pool⟩
  | some id => pool.objDelete id

/-- `NULL` is not checked for. -/
def osiLockObjDelete : Option ℤ → Except Fault (Outcome riot)
  | none => .error .nullPointer
  | some id => pool.objDelete id

end Pool

inductive Kind where
  | sync
  | lock
  deriving DecidableEq

inductive Call where
  | create (kind : Kind) (null : Bool)
  | delete (kind : Kind) (obj : Option ℤ)
  deriving DecidableEq

/-- The argument is `NULL`. -/
def Call.Null : Call → Prop
  | .create _ null => null = true
  | .delete _ obj => obj = none

def perform (pool : Pool riot) : Call → Except Fault (Outcome riot)
  | .create .sync null => .ok (pool.osiSyncObjCreate null)
  | .create .lock null => .ok (pool.osiLockObjCreate null)
  | .delete .sync obj => pool.osiSyncObjDelete obj
  | .delete .lock obj => pool.osiLockObjDelete obj

/-- The pool with the ids of the objects that were created and not deleted since. -/
structure State (riot : Riot MAX_SYNC_OBJS) extends Pool riot where
  allocated : List ℤ

namespace State

def initial (pool : Pool riot) : State riot := ⟨pool.initSyncPool, []⟩

def step (s : State riot) (c : Call) : State riot :=
  match perform s.toPool c with
  | .error _ => s
  | .ok outcome => ⟨outcome.pool, match c with
    | .create _ _ => outcome.handedOut.toList ++ s.allocated
    | .delete _ obj => obj.elim s.allocated s.allocated.erase⟩

def Exhausted (s : State riot) : Prop := MAX_SYNC_OBJS ≤ s.allocated.length

instance (s : State riot) : Decidable s.Exhausted := inferInstanceAs (Decidable (_ ≤ _))

/-- Only an allocated object is deleted; a sync object given as `NULL` is refused. -/
def Legal (s : State riot) : Call → Prop
  | .create _ _ => True
  | .delete kind none => kind = .sync
  | .delete _ (some id) => id ∈ s.allocated

instance (s : State riot) (c : Call) : Decidable (s.Legal c) := match c with
  | .create _ _ => isTrue trivial
  | .delete kind none => inferInstanceAs (Decidable (kind = .sync))
  | .delete _ (some id) => inferInstanceAs (Decidable (id ∈ s.allocated))

/-- The call returns. It hands out a number of the pool, and nothing when the pool is exhausted;
after it no two allocated objects have the same id. -/
def Sound (s : State riot) (c : Call) : Prop :=
  ∃ outcome, perform s.toPool c = .ok outcome ∧
    (∀ id ∈ outcome.handedOut, 0 ≤ id ∧ id < MAX_SYNC_OBJS) ∧ (s.step c).allocated.Nodup ∧
    ∀ kind null, c = .create kind null → s.Exhausted → outcome.ret ≠ .ok ∧ outcome.stored = none

/-- The pool is not exhausted where an object is to be created. -/
def HasRoom (s : State riot) : Call → Prop
  | .create _ false => ¬s.Exhausted
  | .create _ true => True
  | .delete _ _ => True

instance (s : State riot) (c : Call) : Decidable (s.HasRoom c) := match c with
  | .create _ false => inferInstanceAs (Decidable ¬s.Exhausted)
  | .create _ true => isTrue trivial
  | .delete _ _ => isTrue trivial

end State

/-- The numbers of the mutexes. -/
def ids : List ℤ := (List.finRange MAX_SYNC_OBJS).map fun i => (i.val : ℤ)

lemma mem_ids {id : ℤ} : id ∈ ids ↔ 0 ≤ id ∧ id < MAX_SYNC_OBJS := by
  simp only [ids, List.mem_map, List.mem_finRange, true_and]
  constructor
  · rintro ⟨i, rfl⟩
    have hi := i.isLt
    omega
  · rintro ⟨hnonneg, hlt⟩
    exact ⟨⟨id.toNat, by omega⟩, Int.toNat_of_nonneg hnonneg⟩

lemma nodup_ids : ids.Nodup :=
  (List.nodup_finRange _).map fun i j hij => Fin.ext (by exact_mod_cast hij)

lemma length_ids : ids.length = MAX_SYNC_OBJS := by
  rw [ids, List.length_map, List.length_finRange]

namespace Pool

variable {pool : Pool riot}

def free (pool : Pool riot) : List ℤ := riot.stack pool.synchronizer

lemma free_initSyncObj {i : Fin MAX_SYNC_OBJS} (hi : (i.val : ℤ) ∉ pool.free) :
    (pool.initSyncObj i).free = (i.val : ℤ) :: pool.free :=
  riot.stack_insert _ _ i.isLt hi

lemma free_foldl {l : List (Fin MAX_SYNC_OBJS)} (hl : l.Nodup)
    (hnew : ∀ i ∈ l, (i.val : ℤ) ∉ pool.free) :
    (l.foldl initSyncObj pool).free = (l.map fun i => (i.val : ℤ)).reverse ++ pool.free := by
  induction l generalizing pool with
  | nil => rfl
  | cons i l ih =>
    obtain ⟨hil, hl⟩ := List.nodup_cons.mp hl
    have hfirst := free_initSyncObj (hnew i List.mem_cons_self)
    have hrest : ∀ j ∈ l, (j.val : ℤ) ∉ (pool.initSyncObj i).free := by
      intro j hj
      rw [hfirst, List.mem_cons, not_or]
      refine ⟨fun hij => ?_, hnew j (List.mem_cons_of_mem i hj)⟩
      have hij : j = i := Fin.ext (by exact_mod_cast hij)
      exact hil (hij ▸ hj)
    rw [List.foldl_cons, ih hl hrest, hfirst, List.map_cons, List.reverse_cons, List.append_assoc]
    rfl

/-- After `init_sync_pool` every number is free. -/
lemma free_initSyncPool (pool : Pool riot) : pool.initSyncPool.free = ids.reverse := by
  have hempty : ({ pool with synchronizer := riot.lifoInit } : Pool riot).free = [] :=
    riot.stack_init
  have hfree : pool.initSyncPool.free = ids.reverse ++ _ :=
    free_foldl (List.nodup_finRange MAX_SYNC_OBJS) fun i _ => by rw [hempty]; exact List.not_mem_nil
  rw [hfree, hempty, List.append_nil]

lemma objCreate_of_cons {id : ℤ} {rest : List ℤ} (h : pool.free = id :: rest) :
    ∃ pool', pool.objCreate false = ⟨.ok, some id, pool'⟩ ∧ pool'.free = rest := by
  obtain ⟨hid, hrest⟩ := riot.get_cons _ _ _ h
  refine ⟨{ pool with synchronizer := (riot.lifoGet pool.synchronizer).2 }, ?_, hrest⟩
  rw [objCreate, if_neg Bool.false_ne_true, ← hid]

/-- The result of `lifo_get` is not checked. -/
lemma objCreate_of_nil (h : pool.free = []) :
    ∃ pool', pool.objCreate false = ⟨.ok, some (-1), pool'⟩ := by
  obtain ⟨hid, -⟩ := riot.get_nil _ h
  refine ⟨{ pool with synchronizer := (riot.lifoGet pool.synchronizer).2 }, ?_⟩
  rw [objCreate, if_neg Bool.false_ne_true, ← hid]

lemma objDelete_eq {id : ℤ} (hid : id ∈ ids) (hnew : id ∉ pool.free) :
    ∃ pool', pool.objDelete id = .ok ⟨.ok, none, pool'⟩ ∧ pool'.free = id :: pool.free := by
  obtain ⟨hnonneg, hlt⟩ := mem_ids.mp hid
  obtain ⟨n, rfl⟩ := Int.eq_ofNat_of_zero_le hnonneg
  have hn : n < MAX_SYNC_OBJS := by exact_mod_cast hlt
  obtain ⟨osiMutexes, hmutex⟩ : ∃ osiMutexes,
      pool.mutexInit n = .ok { pool with osiMutexes := osiMutexes } := ⟨_, dif_pos ⟨hnonneg, hn⟩⟩
  refine ⟨⟨riot.lifoInsert pool.synchronizer n, osiMutexes⟩, ?_, riot.stack_insert _ n hn hnew⟩
  rw [objDelete, hmutex]
  rfl

lemma perform_create (kind : Kind) (null : Bool) :
    perform pool (.create kind null) = .ok (pool.objCreate null) := by
  cases kind with
  | sync => rfl
  | lock => rfl

lemma perform_delete (kind : Kind) (id : ℤ) :
    perform pool (.delete kind (some id)) = pool.objDelete id := by
  cases kind with
  | sync => rfl
  | lock => rfl

end Pool

namespace State

variable {s : State riot} {c : Call}

/-- Every number is free or allocated, and none is both or twice one of them. -/
def Stocked (s : State riot) : Prop := Stock.Shared ids s.free s.allocated

lemma stocked_initial (pool : Pool riot) : (initial pool).Stocked := by
  apply Stock.Shared.all_free nodup_ids
  rw [initial, Pool.free_initSyncPool]
  exact List.reverse_perm ids

lemma Stocked.exhausted_iff (h : s.Stocked) : s.Exhausted ↔ s.free = [] := by
  rw [Stock.Shared.exhausted_iff h, length_ids, Exhausted]

/-- What calls do to the numbers. -/
inductive Does (s : State riot) : Call → OsiReturnVal → Option ℤ → State riot → Prop
  | refuse (c : Call) (h : c.Null) : Does s c .invalidParams none s
  | handOut (kind : Kind) (id : ℤ) (pool : Pool riot) (h : s.free = id :: pool.free) :
    Does s (.create kind false) .ok (some id) ⟨pool, id :: s.allocated⟩
  | runOut (kind : Kind) (pool : Pool riot) (h : s.free = []) :
    Does s (.create kind false) .ok (some (-1)) ⟨pool, -1 :: s.allocated⟩
  | takeBack (kind : Kind) (id : ℤ) (pool : Pool riot) (hid : id ∈ s.allocated)
      (h : pool.free = id :: s.free) :
    Does s (.delete kind (some id)) .ok none ⟨pool, s.allocated.erase id⟩

lemma step_create (kind : Kind) (null : Bool) :
    s.step (.create kind null) = ⟨(s.objCreate null).pool,
      (s.objCreate null).handedOut.toList ++ s.allocated⟩ := by
  rw [step, Pool.perform_create]

/-- A legal call on a pool whose numbers are all there returns, and does one of these. -/
theorem step_cases (h : s.Stocked) (hlegal : s.Legal c) :
    ∃ ret stored s', perform s.toPool c = .ok ⟨ret, stored, s'.toPool⟩ ∧ s.step c = s' ∧
      s.Does c ret stored s' := by
  cases c with
  | create kind null =>
    have hperform : perform s.toPool (.create kind null) = _ := Pool.perform_create kind null
    have hstep : s.step (.create kind null) = _ := step_create kind null
    cases null with
    | true => exact ⟨_, _, s, hperform, hstep, .refuse _ rfl⟩
    | false =>
      cases hfree : s.free with
      | nil =>
        obtain ⟨pool, hcreate⟩ := Pool.objCreate_of_nil hfree
        rw [hcreate] at hperform hstep
        exact ⟨_, _, _, hperform, hstep, .runOut kind pool hfree⟩
      | cons id rest =>
        obtain ⟨pool, hcreate, hrest⟩ := Pool.objCreate_of_cons hfree
        rw [hcreate] at hperform hstep
        exact ⟨_, _, _, hperform, hstep, .handOut kind id pool (hrest.symm ▸ hfree)⟩
  | delete kind obj =>
    cases obj with
    | none =>
      obtain rfl : kind = .sync := hlegal
      exact ⟨_, _, s, rfl, rfl, .refuse _ rfl⟩
    | some id =>
      have hid : id ∈ s.allocated := hlegal
      obtain ⟨pool, hdelete, hpool⟩ :=
        Pool.objDelete_eq (Stock.Shared.mem_of_taken h hid) (Stock.Shared.not_free_of_taken h hid)
      have hperform := (Pool.perform_delete kind id).trans hdelete
      refine ⟨_, _, _, hperform, ?_, .takeBack kind id pool hid hpool⟩
      rw [step, hperform]
      rfl

theorem stocked_step (h : s.Stocked) (hlegal : s.Legal c) (hroom : s.HasRoom c) :
    (s.step c).Stocked := by
  obtain ⟨ret, stored, s', -, hstep, hdoes⟩ := step_cases h hlegal
  rw [hstep]
  cases hdoes with
  | refuse => exact h
  | handOut kind id pool hfree =>
    have h : Stock.Shared ids s.free s.allocated := h
    rw [hfree] at h
    exact h.take
  | runOut kind pool hfree => exact absurd (h.exhausted_iff.mpr hfree) hroom
  | takeBack kind id pool hid hfree =>
    have hback := Stock.Shared.putBack h hid
    rw [← hfree] at hback
    exact hback

/-- The ids that a call hands out while the pool has room for it are numbers of mutexes. -/
lemma Does.mem_ids {ret : OsiReturnVal} {stored : Option ℤ} {s' : State riot}
    (hdoes : s.Does c ret stored s') (h : s.Stocked) (hroom : s.HasRoom c) :
    ∀ id ∈ stored, id ∈ ids := by
  intro id hid
  cases hdoes with
  | refuse => simp at hid
  | handOut kind id' pool hfree =>
    obtain rfl : id' = id := by simpa using hid
    apply Stock.Shared.mem_of_free h
    rw [hfree]
    exact List.mem_cons_self
  | runOut kind pool hfree => exact absurd (h.exhausted_iff.mpr hfree) hroom
  | takeBack => simp at hid

/-- A call does what it should exactly when there is a number left for it. -/
theorem sound_iff (h : s.Stocked) (hlegal : s.Legal c) : s.Sound c ↔ s.HasRoom c := by
  obtain ⟨ret, stored, s', hperform, -, hdoes⟩ := step_cases h hlegal
  constructor
  · rintro ⟨outcome, hreturn, hids, -, -⟩
    obtain rfl : _ = outcome := Except.ok.inj (hperform.symm.trans hreturn)
    cases hdoes with
    | refuse c hnull =>
      cases c with
      | create kind null =>
        obtain rfl : null = true := hnull
        trivial
      | delete kind obj => trivial
    | handOut kind id pool hfree =>
      intro hexhausted
      rw [h.exhausted_iff, hfree] at hexhausted
      exact List.cons_ne_nil _ _ hexhausted
    | runOut kind pool hfree => exact absurd (hids (-1) rfl).1 (by decide)
    | takeBack => trivial
  · intro hroom
    have hnext := Stock.Shared.nodup_taken (stocked_step h hlegal hroom)
    refine ⟨_, hperform, ?_, hnext, ?_⟩
    · intro id hid
      rw [Outcome.handedOut] at hid
      split at hid
      · exact SyncPool.mem_ids.mp (hdoes.mem_ids h hroom id hid)
      · simp at hid
    · rintro kind null rfl hexhausted
      cases null with
      | true =>
        cases hdoes
        exact ⟨nofun, rfl⟩
      | false => exact absurd hexhausted hroom

/-- In a run that deletes only what is allocated, the calls do what they should if and only if
no object is created while the pool is exhausted. -/
theorem sync_pool_sound_iff (pool : Pool riot) (calls : List Call)
    (hlegal : Meets step Legal (initial pool) calls) :
    Meets step Sound (initial pool) calls ↔ Meets step HasRoom (initial pool) calls :=
  hlegal.iff_of_invariant Stocked (fun _ _ => stocked_step) (fun _ _ => sound_iff)
    (stocked_initial pool)

/-- A lifo kept as a list. -/
def sampleRiot : Riot MAX_SYNC_OBJS where
  Mutex := Bool
  mutexInit := false
  Lifo := List ℤ
  lifoInit := []
  lifoInsert lifo id := id :: lifo
  lifoGet
    | [] => (-1, [])
    | id :: lifo => (id, lifo)
  stack lifo := lifo
  stack_init := rfl
  stack_insert _ _ _ _ := rfl
  get_nil := by
    rintro _ rfl
    exact ⟨rfl, rfl⟩
  get_cons := by
    rintro _ id rest rfl
    exact ⟨rfl, rfl⟩

def samplePool : Pool sampleRiot := ⟨[], fun _ => false⟩

/-- The number of a sync object that was deleted goes to a lock. -/
theorem sync_pool_sound_sample : Meets step Sound (initial samplePool)
    [.create .sync false, .create .lock false, .delete .sync (some 63), .create .lock false] :=
  (sync_pool_sound_iff samplePool _ (by decide +kernel)).mpr (by decide +kernel)

/-- The sixty-fifth object gets -1. -/
theorem exhausted_create_hands_out :
    Meets step Legal (initial samplePool) (List.replicate 65 (.create .sync false)) ∧
      ¬Meets step Sound (initial samplePool) (List.replicate 65 (.create .sync false)) := by
  refine ⟨by decide +kernel, fun h => ?_⟩
  rw [List.replicate_succ'] at h
  obtain ⟨outcome, hperform, hids, -⟩ := h.last
  have hid : (perform (run step (initial samplePool) (List.replicate 64 (.create .sync false))).toPool
      (.create .sync false)).toOption.bind Outcome.handedOut = some (-1) := by
    decide +kernel
  rw [hperform] at hid
  exact absurd (hids (-1) hid).1 (by decide)

end State

end Nais.Board.SyncPool
