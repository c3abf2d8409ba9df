import RouterAgent.HardwareAddress
import RouterAgent.OrderedMap

/-!
The clients of the router, and the table of them, fed by several files.

Each file contributes the clients that its last reading listed. Putting in a new contribution
drops the clients that only the old one listed and that still belong to this file, and lets the new
records win over those of other files.
-/

namespace RouterAgent

/-- A client: its hardware address, the network address leased to it, the name it gave, the second
at which the lease ends, and the file that lists it. -/
structure Client where
  mac : String
  ip : String
  hostname : String
  expires : Option Int
  source : String
deriving DecidableEq, Inhabited

namespace Client

/-- The records by address, and the addresses that each file listed last. -/
structure Table where
  records : OrderedMap String Client
  listed : OrderedMap String (List String)

namespace Table

def empty : Table := ⟨.empty, .empty⟩

instance : Inhabited Table := ⟨empty⟩

/-- The records of a batch by address; of several records of one address the last one counts. -/
def byAddress (batch : List Client) : OrderedMap String Client :=
  .ofList (batch.map fun r => (r.mac, r))

def listedBy (t : Table) (source : String) : List String := (t.listed.get? source).getD []

/-- The addresses that leave the table: listed by the file before and not now, with a record that
the file put in. -/
def stale (t : Table) (source : String) (incoming : OrderedMap String Client) : List String :=
  (t.listedBy source).filter fun mac =>
    !incoming.contains mac && (t.records.get? mac).any (·.source = source)

/-- The entries that say something new. -/
def fresh (t : Table) (incoming : OrderedMap String Client) : List (String × Client) :=
  incoming.entries.filter fun e => t.records.get? e.1 ≠ some e.2

/-- Puts a file's new contribution in the place of its old one, and says whether a record
changed. -/
def replaceSource (t : Table) (source : String) (batch : List Client) : Bool × Table :=
  let incoming := byAddress batch
  let out := t.stale source incoming
  let new := t.fresh incoming
  (!out.isEmpty || !new.isEmpty,
    { records := (t.records.eraseMany out).insertMany new
      listed := t.listed.insert source incoming.keys })

/-- The record of an address, in any of its spellings. -/
def get? (t : Table) (mac : String) : Option Client :=
  (HardwareAddress.normalize? mac).bind t.records.get?

def size (t : Table) : Nat := t.records.size

/-- All records, ordered by address. -/
def snapshot (t : Table) : List Client :=
  t.records.values.mergeSort fun a b => a.mac ≤ b.mac

end Table

end Client

end RouterAgent
