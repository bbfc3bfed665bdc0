import Onboard.Datagram.Host

/-!
Endpoints of publishing sockets: a transport and an address. `Endpoint.failure?` tells what is wrong with one before
any peer is known. To bind, an address of the network has to be a number; to connect, it only has to look like an
address, or for web sockets to be known.
-/

namespace Onboard

inductive SocketFailure where
  | invalidArgument
  | protocolNotSupported
  | protocolIncompatible
  | file (cause : IoFailure)
  | noSuchDevice
  deriving DecidableEq

def SocketFailure.message : SocketFailure → String
  | .invalidArgument => "Invalid argument"
  | .protocolNotSupported => "Protocol not supported"
  | .protocolIncompatible => "The protocol is not compatible with the socket type"
  | .file cause => cause.description
  | .noSuchDevice => "No such device"

namespace Endpoint

/-- Whether a place is bound or connected to. -/
inductive Use where
  | binding
  | connecting
  deriving DecidableEq

/-- The value of digits of a base up to sixteen, if they are some. -/
def digitsIn? (base : Nat) (digits : List Char) : Option Nat :=
  if digits = [] then none
  else digits.foldlM (fun n c =>
    let d := if c.isDigit then c.toNat - '0'.toNat
      else if 'a' ≤ c.toLower ∧ c.toLower ≤ 'f' then c.toLower.toNat - 'a'.toNat + 10
      else base
    if d < base then some (n * base + d) else none) 0

/-- A part of a numeric address: hexadecimal behind `0x`, octal behind another zero, else decimal. -/
def part? : List Char → Option Nat
  | '0' :: 'x' :: digits => digitsIn? 16 digits
  | '0' :: 'X' :: digits => digitsIn? 16 digits
  | '0' :: digit :: digits => digitsIn? 8 (digit :: digits)
  | digits => digitsIn? 10 digits

/-- One to four parts with points between them. The last part fills all bytes that the others leave. -/
def isOldForm (host : List Char) : Bool :=
  match (host.splitOn '.').mapM part? with
  | none => false
  | some parts =>
    let last := parts.getLastD 0
    parts.length ≤ 4 && parts.dropLast.all (· ≤ 0xFF) && last < 1 <<< (8 * (5 - parts.length))

/-- An address of the older family as a number, in its own form or in the groups of the newer family. -/
def isNumericHost (host : List Char) : Bool :=
  isOldForm host ||
    match IpAddress.ofText? (String.ofList host) with
    | some (.v6 groups _) => NetworkHost.isMapped groups
    | _ => false

def isBlank (c : Char) : Bool :=
  c = ' ' || ('\t' ≤ c && c ≤ '\r')

/-- The number with which a text begins, behind blanks and a sign; zero if there is none. It is held in 64 bits. -/
def leadingNumber (text : List Char) : Int :=
  let size (digits : List Char) : Int :=
    (digits.takeWhile Char.isDigit).foldl (fun n c => 10 * n + (c.toNat - '0'.toNat)) (0 : Nat)
  match text.dropWhile isBlank with
  | '-' :: digits => max (-0x8000000000000000) (-size digits)
  | '+' :: digits => min 0x7FFFFFFFFFFFFFFF (size digits)
  | digits => min 0x7FFFFFFFFFFFFFFF (size digits)

def splitLast? (c : Char) (text : List Char) : Option (List Char × List Char) :=
  let after := (text.reverse.takeWhile (· ≠ c)).reverse
  if after.length < text.length then some (text.take (text.length - after.length - 1), after) else none

/-- A port: a star for any when binding, or a number of which sixteen bits are taken. Zero has to stand alone. -/
def isPort (use : Use) (text : List Char) : Bool :=
  if text = ['*'] then use = .binding else text = ['0'] || leadingNumber text % 0x10000 ≠ 0

/-- What is left of a host between brackets. -/
def unbracketed : List Char → List Char
  | '[' :: rest => if rest.getLast? = some ']' then rest.dropLast else '[' :: rest
  | host => host

/-- Whether the zone behind an address, an interface's name or its number, is one. -/
def isZone (computer : NetworkHost) (zone : List Char) : Bool :=
  match zone with
  | [] => false
  | c :: _ =>
    if c.isAlpha then (computer.interfaceIndex (String.ofList zone)).isSome
    else leadingNumber zone % 0x100000000 ≠ 0

/-- Names of hosts that are known without asking anyone. -/
def knownHosts : List String := ["localhost"]

/-- A host that can be resolved. Names are looked up only to connect. -/
def checkHost (use : Use) (host : List Char) : Except SocketFailure Unit :=
  match use with
  | .binding => if host = ['*'] ∨ isNumericHost host then .ok () else .error .noSuchDevice
  | .connecting =>
    if isNumericHost host ∨ knownHosts.contains (String.ofList host) then .ok () else .error .invalidArgument

/-- An address that can be resolved: a host, its zone if there is one, and behind the last colon a port. -/
def resolve (computer : NetworkHost) (use : Use) (address : List Char) : Except SocketFailure Unit :=
  match splitLast? ':' address with
  | none => .error .invalidArgument
  | some (host, port) =>
    if !isPort use port then .error .invalidArgument
    else
      match splitLast? '%' (unbracketed host) with
      | none => checkHost use (unbracketed host)
      | some (host, zone) => if isZone computer zone then checkHost use host else .error .invalidArgument

/-- To bind, an address may have another one before it, behind which it stands after a semicolon. -/
def resolveBoth (computer : NetworkHost) (address : List Char) : Except SocketFailure Unit := do
  match splitLast? ';' address with
  | none => resolve computer .binding address
  | some (source, address) =>
    resolve computer .binding source
    resolve computer .binding address

def looksConnectable (address : List Char) : Bool :=
  let begins (c : Char) : Bool := c.isAlphanum || c = '[' || c = ':'
  let goesOn (c : Char) : Bool := c.isAlphanum || (".-:%;[]_*").toList.contains c
  match address with
  | [] => false
  | first :: rest =>
    begins first && rest.all goesOn &&
      match splitLast? ':' address with
      | some (_, port) => (port.head?.map Char.isDigit).getD false
      | none => false

def checkStream (computer : NetworkHost) (use : Use) (address : List Char) : Except SocketFailure Unit :=
  match use with
  | .binding => resolveBoth computer address
  | .connecting => if looksConnectable address then .ok () else .error .invalidArgument

/-- What is left of a place when its host is cut at the first slash. -/
def withoutPath (place : List Char) : List Char :=
  match splitLast? ':' place with
  | some (host, port) => host.takeWhile (· ≠ '/') ++ ':' :: port
  | none => place

/-- A web address may end in a path behind a slash. Only to bind, all before the last slash has to be an address. -/
def checkWeb (computer : NetworkHost) (use : Use) (address : List Char) : Except SocketFailure Unit := do
  let place := match splitLast? '/' address with
    | some (place, _) => place
    | none => address
  if !address.contains ':' then .error .invalidArgument
  resolve computer use (withoutPath place)
  match use with
  | .binding => resolveBoth computer place
  | .connecting => .ok ()

/-- Paths of local sockets are shorter than this many bytes. -/
def pathLimit : Nat := 108

/-- A path whose first character is a star stands for a new one, and an at sign begins a name that is no path. What
lies at the path is removed if it can be. -/
def checkLocal (files : FileTree) (use : Use) (path : String) : Except SocketFailure Unit :=
  if use = .binding ∧ path.startsWith "*" then .ok ()
  else if pathLimit ≤ path.utf8ByteSize then .error (.file .nameTooLong)
  else if path = "@" then .error .invalidArgument
  else if use = .connecting ∨ path.startsWith "@" then .ok ()
  else
    let left := (files.remove path).toOption.getD files
    match left.makeSocket path with
    | .ok _ => .ok ()
    | .error cause => .error (.file cause)

def check (computer : NetworkHost) (files : FileTree) (use : Use) (protocol address : List Char) :
    Except SocketFailure Unit :=
  match String.ofList protocol with
  | "inproc" => .ok ()
  | "ipc" => checkLocal files use (String.ofList address)
  | "tcp" => checkStream computer use address
  | "ws" => checkWeb computer use address
  | "udp" => .error .protocolIncompatible
  | _ => .error .protocolNotSupported

def split? : List Char → Option (List Char × List Char)
  | ':' :: '/' :: '/' :: rest => some ([], rest)
  | c :: rest => (split? rest).map fun r => (c :: r.1, r.2)
  | [] => none

def failure? (computer : NetworkHost) (files : FileTree) (use : Use) (endpoint : String) : Option SocketFailure :=
  match split? endpoint.toList with
  | none => some .invalidArgument
  | some (protocol, address) =>
    if protocol = [] ∨ address = [] then some .invalidArgument
    else
      match check computer files use protocol address with
      | .ok _ => none
      | .error cause => some cause

end Endpoint

end Onboard
