import TaskPool.Proofs.MergedSystem

/-!
# The merged world

Names, loans, counters, gates and the clock know nothing of queues, so a script sees the same in the
merged world as in the world itself. Only to tell objects apart one has to know that no token of a
home pool is among them. `Merging.Suits` says how the home pools have to be used for that, and for
all that follows.
-/

namespace TaskPool

open TaskPool.System

/-! ## Tables and steps that may fail -/

namespace Table

variable {α β : Type} {table : Table α} {name : String}

theorem find?_map (f : α → β) (name : String) (table : Table α) :
    find? name (table.map fun (key, value) => (key, f value)) = (find? name table).map f := by
  induction table with
  | nil => rfl
  | cons entry rest ih =>
      obtain ⟨key, value⟩ := entry
      by_cases same : key = name
      · simp [find?, same]
      · simpa [find?, same] using ih

theorem put_map (f : α → β) (name : String) (value : α) (table : Table α) :
    (put name value table).map (fun (key, value) => (key, f value)) =
      put name (f value) (table.map fun (key, value) => (key, f value)) := by
  induction table with
  | nil => rfl
  | cons entry rest ih =>
      obtain ⟨key, old⟩ := entry
      by_cases same : key = name
      · simp [put, same]
      · simpa [put, same] using ih

theorem remove_map (f : α → β) (name : String) (table : Table α) :
    (remove name table).map (fun (key, value) => (key, f value)) =
      remove name (table.map fun (key, value) => (key, f value)) := by
  simp only [remove, List.filter_map]
  rfl

theorem leastName?_map (f : α → β) {wanted : α → Bool} {wanted' : β → Bool}
    (same : ∀ value, wanted' (f value) = wanted value) (table : Table α) :
    leastName? wanted' (table.map fun (key, value) => (key, f value)) =
      leastName? wanted table := by
  simp only [leastName?, List.foldl_map, same]

end Table

section

variable {ε α β γ δ : Type} {x : Except ε α} {f : α → Except ε β} {g : β → γ}

theorem bind_mapped {f' : α → Except ε γ} (same : ∀ a, x = .ok a → f' a = (f a).map g) :
    (x >>= f') = (x >>= f).map g := by
  cases x with
  | error => rfl
  | ok a => exact same a rfl

theorem bind_mapped_of {f' : α → Except ε γ} {holds : β → Prop}
    (all : ∀ b, (x >>= f) = .ok b → holds b)
    (same : ∀ a, x = .ok a → (∀ b, f a = .ok b → holds b) → f' a = (f a).map g) :
    (x >>= f') = (x >>= f).map g := by
  cases x with
  | error => rfl
  | ok a => exact same a rfl all

theorem map_bind_mapped_of {h : α → δ} {x' : Except ε δ} {f' : δ → Except ε γ} {holds : β → Prop}
    (first : x' = x.map h) (all : ∀ b, (x >>= f) = .ok b → holds b)
    (same : ∀ a, x = .ok a → (∀ b, f a = .ok b → holds b) → f' (h a) = (f a).map g) :
    (x' >>= f') = (x >>= f).map g := by
  subst first
  cases x with
  | error => rfl
  | ok a => exact same a rfl all

theorem map_bind_mapped {h : α → δ} {x' : Except ε δ} {f' : δ → Except ε γ}
    (first : x' = x.map h) (same : ∀ a, x = .ok a → f' (h a) = (f a).map g) :
    (x' >>= f') = (x >>= f).map g := by
  subst first
  cases x with
  | error => rfl
  | ok a => exact same a rfl

end

namespace Merging

variable {μ : Merging} {w : World} {ctx : Context} {name : String} {loans : List Loan}
  {object : Object}

/-! ## Worlds -/

def Keeps (μ : Merging) : Object → Prop
  | .token t => μ.own t = false
  | _ => True

theorem object_injective {object' : Object} (kept : μ.Keeps object) (kept' : μ.Keeps object')
    (same : μ.object object = μ.object object') : object = object' := by
  cases object with
  | token t =>
      cases object' with
      | token u => exact congrArg Object.token (token_injective kept kept' (Object.token.inj same))
      | pool | commonPool | batch => exact Object.noConfusion same
  | pool | commonPool | batch =>
      cases object' with
      | token u => exact Object.noConfusion same
      | pool | commonPool | batch => exact same

/-- No token of a home pool has a name, when all of them are those of batches. -/
theorem keeps_of_nameable {s : System Work}
    (owned : ∀ t, μ.own t = true → t.index < s.tokens.length → ∃ b, (s.batch b).kind = .single t)
    (nameable : s.Nameable object) : μ.Keeps object := by
  cases object with
  | token t =>
      obtain ⟨opened, free⟩ := nameable
      refine Bool.eq_false_iff.mpr fun own => ?_
      obtain ⟨b, owns⟩ := owned t own (token_known opened)
      exact free b owns
  | pool | commonPool | batch => trivial

/-- What the merging relies on in a world. -/
structure Suits (μ : Merging) (w : World) : Prop where
  registry : Registry w.system w.names
  covers : μ.Covers w.system
  narrow : μ.Narrow w.system
  /-- A pool goes by the name if and only if it is a home pool. -/
  named : ∀ name p, w.names.find? name = some (.pool p) → (name = μ.name ↔ μ.home p = true)
  /-- Every own token is that of a batch, and goes when the batch goes. -/
  owned : ∀ t, μ.own t = true → t.index < w.system.tokens.length →
    ∃ b, (w.system.batch b).kind = .single t
  opened : ∀ t, (w.system.token t).stage ≠ .closed → μ.own t = true →
    ∃ b, (w.system.batch b).pool = (w.system.token t).pool ∧ (w.system.batch b).stage ≠ .closed
  loans : ∀ loan ∈ w.loans, μ.Keeps loan.object

theorem Suits.keeps_nameable (suits : μ.Suits w) (nameable : w.system.Nameable object) :
    μ.Keeps object :=
  keeps_of_nameable suits.owned nameable

theorem Suits.keeps (suits : μ.Suits w) (named : w.names.find? name = some object) :
    μ.Keeps object :=
  suits.keeps_nameable (suits.registry.named name _ (Table.mem_of_find? named))

@[simp] theorem find_names (name : String) :
    (μ.world w).names.find? name = (w.names.find? name).map μ.object :=
  Table.find?_map μ.object name w.names

theorem resolve_world (driver : ctx.thread = .driver) (name : String) :
    (μ.world w).resolve ctx.thread name = (w.resolve ctx.thread name).map μ.object := by
  simp only [World.resolve, find_names, driver]
  cases w.names.find? name <;> rfl

@[simp] theorem checkFresh_world (thread : ThreadId) (name : String) :
    (μ.world w).checkFresh thread name = w.checkFresh thread name := by
  simp only [World.checkFresh, find_names, Option.isNone_map]

theorem resolvePool_world (driver : ctx.thread = .driver) (name : String) :
    (μ.world w).resolvePool ctx.thread name = w.resolvePool ctx.thread name := by
  simp only [World.resolvePool, resolve_world driver]
  cases w.resolve ctx.thread name with
  | error => rfl
  | ok object => cases object <;> rfl

@[simp] theorem bind_world (name : String) (object : Object) :
    (μ.world w).bind name (μ.object object) = μ.world (w.bind name object) := by
  simp only [Merging.world, World.bind, Table.put_map]

@[simp] theorem unbind_world (name : String) :
    (μ.world w).unbind name = μ.world (w.unbind name) := by
  simp only [Merging.world, World.unbind, Table.remove_map]

@[simp] theorem lend_world (loans : List Loan) :
    (μ.world w).lend (loans.map μ.loan) = μ.world (w.lend loans) := by
  simp only [Merging.world, World.lend, List.map_append]

theorem any_map_loan (kept : μ.Keeps object) {loans : List Loan}
    (others : ∀ loan ∈ loans, μ.Keeps loan.object) :
    (loans.map μ.loan).any (·.object = μ.object object) = loans.any (·.object = object) := by
  rw [List.any_map, Bool.eq_iff_iff, List.any_eq_true, List.any_eq_true]
  refine exists_congr fun loan => and_congr_right fun member => ?_
  have same : (μ.loan loan).object = μ.object object ↔ loan.object = object :=
    ⟨object_injective (others loan member) kept, fun same => congrArg μ.object same⟩
  simp [same]

theorem Suits.inUse (suits : μ.Suits w) (kept : μ.Keeps object) :
    (μ.world w).inUse (μ.object object) = w.inUse object :=
  any_map_loan kept suits.loans

@[simp] theorem isAwaited_world (b : BatchId) : (μ.world w).isAwaited b = w.isAwaited b := by
  simp only [World.isAwaited, Merging.world, List.contains_eq_any_beq, List.any_map]
  congr 1
  funext loan
  obtain ⟨object, hold⟩ := loan
  cases object <;> rfl

theorem Suits.isBusy (suits : μ.Suits w) (kept : μ.Keeps object) :
    (μ.world w).isBusy (μ.object object) = w.isBusy object := by
  have used := suits.inUse kept
  cases object with
  | pool p =>
      have needed := dependsOnPool suits.opened p
      exact congrArg₂ (· || ·) used needed
  | commonPool p => rfl
  | token t => exact used
  | batch b => exact used

theorem erase_map_loan {loan : Loan} {loans : List Loan} (kept : μ.Keeps loan.object)
    (others : ∀ loan ∈ loans, μ.Keeps loan.object) :
    (loans.map μ.loan).erase (μ.loan loan) = (loans.erase loan).map μ.loan := by
  induction loans with
  | nil => rfl
  | cons first rest ih =>
      have later := ih fun loan member => others loan (List.mem_cons_of_mem _ member)
      by_cases same : first = loan
      · simp [same]
      · have apart : μ.loan first ≠ μ.loan loan := by
          intro equal
          refine same ?_
          obtain ⟨object, hold⟩ := first
          obtain ⟨object', hold'⟩ := loan
          obtain ⟨objects, holds⟩ := Loan.mk.inj equal
          exact congrArg₂ Loan.mk
            (object_injective (others _ List.mem_cons_self) kept objects) holds
        rw [List.map_cons, List.erase_cons_tail (by simpa using apart), later,
          List.erase_cons_tail (by simpa using same), List.map_cons]

theorem foldl_erase_map_loan {returned loans : List Loan}
    (kept : ∀ loan ∈ returned, μ.Keeps loan.object)
    (others : ∀ loan ∈ loans, μ.Keeps loan.object) :
    (returned.map μ.loan).foldl List.erase (loans.map μ.loan) =
      (returned.foldl List.erase loans).map μ.loan := by
  induction returned generalizing loans with
  | nil => rfl
  | cons loan rest ih =>
      rw [List.map_cons, List.foldl_cons, List.foldl_cons,
        erase_map_loan (kept loan List.mem_cons_self) others]
      exact ih (fun loan member => kept loan (List.mem_cons_of_mem _ member))
        fun loan member => others loan (List.mem_of_mem_erase member)

theorem Suits.giveBack (suits : μ.Suits w) (kept : ∀ loan ∈ loans, μ.Keeps loan.object) :
    (μ.world w).giveBack (loans.map μ.loan) = μ.world (w.giveBack loans) := by
  simp only [World.giveBack, Merging.world, foldl_erase_map_loan kept suits.loans]

@[simp] theorem poolState_world (p : PoolId) : (μ.world w).poolState p = w.poolState p := by
  simp only [World.poolState, Merging.world, pool_system]
  rfl

@[simp] theorem batchState_world (b : BatchId) : (μ.world w).batchState b = w.batchState b := by
  simp only [World.batchState, Merging.world, pool_system, batch_system, System.threshold,
    poolOf_system]
  rfl

@[simp] theorem snapshot_world : (μ.world w).snapshot = w.snapshot := by
  simp only [World.snapshot, Merging.world, List.filterMap_map]
  congr 1
  funext ⟨name, object⟩
  cases object <;> simp [Merging.object, Merging.pool, Merging.batch]

end Merging

end TaskPool
