import BurstRing.Flush

/-!
# Allotting CPUs in turn

Workers are given CPUs in turn: those of the memory node they ask for, if it is known to have any,
or else all of them.  One counter serves all requests, so it also moves on between two requests for
the same node.
-/

namespace BurstRing

/-- The number of CPUs, those of each memory node, and how many have been given out. -/
structure CpuAllocator where
  cpuCount : UInt64
  nodes : Array (Array UInt64)
  next : UInt64
  deriving Repr

/-- The CPUs a request may be given. -/
inductive CpuPool where
  /-- All CPUs, of which there are so many. -/
  | all (count : UInt64)
  | listed (cpus : Array UInt64)
  deriving Repr

namespace CpuPool

def size : CpuPool → UInt64
  | .all count => count
  | .listed cpus => cpus.size.toUInt64

/-- The CPU at place `i`, going round; none if the pool is empty. -/
def pick? (p : CpuPool) (i : UInt64) : Option UInt64 :=
  if p.size = 0 then none
  else
    match p with
    | .all count => some (i % count)
    | .listed cpus => cpus[(i % cpus.size.toUInt64).toNat]?

end CpuPool

namespace CpuAllocator

def create (cpuCount : UInt64) (nodes : Array (Array UInt64)) : CpuAllocator :=
  ⟨cpuCount, nodes, 0⟩

/-- The CPUs for a worker that would like to be at `locality`. -/
def pool (a : CpuAllocator) : Locality → CpuPool
  | .any => .all a.cpuCount
  | .node n =>
    match a.nodes[n.toNat]? with
    | some cpus => if cpus.isEmpty then .all a.cpuCount else .listed cpus
    | none => .all a.cpuCount

/-- The next CPU for `locality`; none only if there are no CPUs at all. -/
def allot (locality : Locality) (a : CpuAllocator) : Option UInt64 × CpuAllocator :=
  ((a.pool locality).pick? a.next, { a with next := a.next + 1 })

def nodeCount (a : CpuAllocator) : Nat := a.nodes.size

end CpuAllocator

end BurstRing
