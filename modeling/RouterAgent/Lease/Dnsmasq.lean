import RouterAgent.Client
import RouterAgent.Lease.Problem
import RouterAgent.Text.Integer

/-!
Lease files of one lease a line.

A line gives the second at which the lease ends, the hardware address, the network address, the
name or an asterisk, and anything more. Blank lines, lines that begin with the word `duid` and
lines with something else in the place of the hardware address list no client.
-/

namespace RouterAgent.Lease.Dnsmasq

open RouterAgent.Text

/-- The name in a field; an asterisk stands for no name. -/
def hostname (field : List Char) : String := if field = ['*'] then "" else String.ofList field

/-- The client that the fields of a line list, if they list one. -/
def client? (source : String) (line : Nat) : List (List Char) → Except Problem (Option Client)
  | [] => .ok none
  | first :: rest =>
    if first = "duid".toList then .ok none
    else match rest with
      | mac :: ip :: name :: _ =>
        match HardwareAddress.normalize? (String.ofList mac) with
        | none => .ok none
        | some mac =>
          match integer? first with
          | none => .error (.badExpiry line (String.ofList first))
          | some expires => .ok (some ⟨mac, String.ofList ip, hostname name, some expires, source⟩)
      | _ => .error (.tooFewFields line (rest.length + 1))

/-- The clients that a text lists, one for each address, in the order in which the addresses first
appear. -/
def parse (source : String) (text : List Char) : Except Problem (List Client) := do
  let found ← ((lines text).zipIdx 1).mapM fun (line, n) => client? source n (words line)
  return (Client.Table.byAddress (found.filterMap id)).values

end RouterAgent.Lease.Dnsmasq
