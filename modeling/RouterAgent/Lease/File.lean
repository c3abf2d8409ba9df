import RouterAgent.Host
import RouterAgent.Lease.Dnsmasq
import RouterAgent.Lease.Isc

/-!
Lease files and how they are read.
-/

namespace RouterAgent.Lease

/-- The two forms of lease files. -/
inductive Format where
  | dnsmasq
  | isc
deriving DecidableEq

def Format.parse : Format → String → List Char → Except Problem (List Client)
  | dnsmasq => Dnsmasq.parse
  | isc => Isc.parse

def Format.readLeases (f : Format) (h : Host) (path : String) : Except Fault (List Client) :=
  match h.readText path with
  | .error why => .error (.leases path (.unreadable (Fault.refused why path).message))
  | .ok text => (f.parse path text).mapError (.leases path)

/-- A reader of its own for a file. The calls of one reader are counted from 1 under its key; a
call for which `answer` has nothing is left to the form of the file. -/
structure Reader where
  key : Nat
  answer : Nat → Option (Except Fault (List Client))

structure WatchedFile where
  path : String
  format : Format
  reader : Option Reader

end RouterAgent.Lease
