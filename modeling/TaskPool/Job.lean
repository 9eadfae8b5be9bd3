/-!
# Jobs and their names

Pools, tokens, batches and jobs are numbered in the order in which they were made. A number is never
used again, so it still names its object after the object is gone. This is what separates two
objects that went by the same name at different times.
-/

namespace TaskPool

@[ext] structure PoolId where
  index : Nat
  deriving Repr, DecidableEq, Inhabited

/-- Names a producer token, and with it the lane of its jobs. -/
@[ext] structure TokenId where
  index : Nat
  deriving Repr, DecidableEq, Inhabited

@[ext] structure BatchId where
  index : Nat
  deriving Repr, DecidableEq, Inhabited

/-- Names one submission of work. -/
@[ext] structure JobId where
  index : Nat
  deriving Repr, DecidableEq, Inhabited

/-- Work that was submitted once. A job that was wrapped for a batch reports to the barrier of that
batch when it is finished; a raw job reports to nobody. -/
structure Job (Work : Type) where
  id : JobId
  batch : Option BatchId
  work : Work
  deriving Repr

/-- How far the life of a pool, a token or a batch has come. Something that is closing cannot be
reached by name any more, but its closing still runs jobs. -/
inductive Stage where
  | live
  | closing
  | closed
  deriving Repr, DecidableEq, Inhabited

end TaskPool
