import VmAdmission.Net.IpReader

namespace VmAdmission

inductive SocketAddress
  | v4 (ip : Ipv4) (port : UInt16)
  | v6 (ip : Ipv6) (scope : UInt32) (port : UInt16)
deriving DecidableEq

namespace SocketAddress

def text : SocketAddress → String
  | .v4 ip port => ip.text ++ ":" ++ toString port
  | .v6 ip scope port =>
    "[" ++ ip.mixedText ++ (if scope = 0 then "" else "%" ++ toString scope) ++ "]:" ++
      toString port

/-- Reads a port after its colon. -/
def port : Scan UInt16 := fun cs => do
  let (n, cs) ← Scan.decimal 65535 (← Scan.mark ':' cs)
  return (n.toUInt16, cs)

/-- Reads a scope after its percent sign, if there is one. -/
def scope (cs : List Char) : UInt32 × List Char :=
  match (Scan.mark '%' cs).bind (Scan.decimal (UInt32.size - 1)) with
  | some (n, rest) => (n.toUInt32, rest)
  | none => (0, cs)

def withIpv4 : Scan SocketAddress := fun cs => do
  let (ip, cs) ← Ipv4.scan cs
  let (port, cs) ← port cs
  return (.v4 ip port, cs)

/-- Reads an address of version 6 in brackets and a port. -/
def withIpv6 : Scan SocketAddress := fun cs => do
  let (ip, cs) ← Ipv6.scan (← Scan.mark '[' cs)
  let (scope, cs) := scope cs
  let (port, cs) ← port (← Scan.mark ']' cs)
  return (.v6 ip scope port, cs)

def parse? (source : String) : Option SocketAddress :=
  match withIpv4 source.toList <|> withIpv6 source.toList with
  | some (address, []) => some address
  | _ => none

end SocketAddress

end VmAdmission
