import NavTree.Task.Run

/-! # Pools of tasks

A pool works off tasks that share a disk. It takes up waiting ones in any order, up to a bound, and
those that it has taken up take turns, one operation at a time, in any order as well.
-/
namespace NavTree

structure Pool (ι α : Type) where
  waiting : List ι
  running : List (ι × Task α)
  /-- What tasks have come to, in the order they ended in. -/
  finished : List (ι × α)
  disk : Disk

namespace Pool

variable {ι α : Type}

def start (jobs : List ι) (d : Disk) : Pool ι α := ⟨jobs, [], [], d⟩

def IsDone (pool : Pool ι α) : Prop := pool.waiting = [] ∧ pool.running = []

inductive Step (station : Station) (work : ι → Task α) (bound : Nat) :
    Pool ι α → Pool ι α → Prop
  | take {before i after running finished d} (h : running.length < bound) :
    Step station work bound ⟨before ++ i :: after, running, finished, d⟩
      ⟨before ++ after, (i, work i) :: running, finished, d⟩
  | perform {waiting before i op next after finished d} :
    Step station work bound ⟨waiting, before ++ (i, .step op next) :: after, finished, d⟩
      ⟨waiting, before ++ (i, next (station.reply d op).1) :: after, finished,
        (station.reply d op).2⟩
  | finish {waiting before i a after finished d} :
    Step station work bound ⟨waiting, before ++ (i, .done a) :: after, finished, d⟩
      ⟨waiting, before ++ after, finished ++ [(i, a)], d⟩

/-- What a pool may come to in any number of steps. -/
inductive Runs (station : Station) (work : ι → Task α) (bound : Nat) :
    Pool ι α → Pool ι α → Prop
  | refl {pool} : Runs station work bound pool pool
  | step {pool next last} (h : Step station work bound pool next)
    (hs : Runs station work bound next last) : Runs station work bound pool last

end Pool

end NavTree
