import Std.Data.TreeSet

/-!
# Ids

Every object of a score has an id of its own.  Text may ask for a certain id, and
all other objects get generated ones.  A generated id is greater than every id
handed out before; when there is no greater one left, it is the least id that is
still free.
-/

namespace LdpScore

/-- The ids that have been handed out. -/
structure IdPool where
  greatest : Option Int := none
  used : Std.TreeSet Int compare := ∅

namespace IdPool

def maxId : Int := 0x7fffffffffffffff

/-- The least id from zero that is free.  Among one more candidate than there are
ids in use, at least one is free. -/
def leastFree (pool : IdPool) : Int :=
  let candidates := (List.range (pool.used.size + 1)).map Int.ofNat
  (candidates.find? fun candidate => !pool.used.contains candidate).getD 0

def next (pool : IdPool) : Int × IdPool :=
  match pool.greatest with
  | none => (0, ⟨some 0, pool.used.insert 0⟩)
  | some greatest =>
      if greatest < maxId then
        (greatest + 1, ⟨some (greatest + 1), pool.used.insert (greatest + 1)⟩)
      else
        let id := pool.leastFree
        (id, ⟨some greatest, pool.used.insert id⟩)

/-- Takes note of an id that was asked for. -/
def claim (pool : IdPool) (id : Int) : IdPool :=
  ⟨some (match pool.greatest with
    | some greatest => max greatest id
    | none => id), pool.used.insert id⟩

/-- Whether an id was handed out before. -/
def isTaken (pool : IdPool) (id : Int) : Bool :=
  pool.used.contains id

/-- What became of a request for an id. -/
inductive Grant where
  /-- The id that was asked for, or a generated one if none was. -/
  | granted (id : Int)
  /-- A generated id, since the one asked for is taken. -/
  | replaced (id : Int)
deriving DecidableEq, Repr

def Grant.id : Grant → Int
  | .granted id => id
  | .replaced id => id

/-- Hands out the id that is asked for, if there is one and it is free, and a
generated id otherwise. -/
def assign (pool : IdPool) (wanted : Option Int) : Grant × IdPool :=
  match wanted with
  | some id =>
      if pool.isTaken id then
        let (fresh, rest) := pool.next
        (.replaced fresh, rest)
      else (.granted id, pool.claim id)
  | none =>
      let (fresh, rest) := pool.next
      (.granted fresh, rest)

end IdPool

end LdpScore
