import Rsock.EncHead

/-!
# The configuration and its JSON text

`RConfig` (bean/RConfig.cpp) is written by `to_json` and read by `parseJsonString`. Two of the members
have a text format of their own, addresses (`parseAddr`) and lists of ports (util/RPortList.cpp). The
text of a JSON value and the network interfaces of the host are given by the environment.
-/

namespace Rsock

open CMem

/-- How a function of the configuration ends without a result. -/
inductive Thrown where
  | assertFailed
  | argsError (what : String)
  /-- `std::out_of_range`, from `std::stoi`. -/
  | outOfRange
  deriving DecidableEq

/-- `assert(c)`. -/
def Thrown.assert (c : Prop) [Decidable c] : Except Thrown Unit :=
  if c then .ok () else .error .assertFailed

/-- `if (c) act` -/
def Thrown.when (c : Prop) [Decidable c] (act : Except Thrown Unit) : Except Thrown Unit :=
  if c then act else .ok ()

/-- `std::stoi` of digits. -/
def stoi (digits : List Char) : Except Thrown Nat :=
  let n := Nat.ofDigitChars 10 digits 0
  if n < 2 ^ 31 then .ok n else .error .outOfRange

/-! ## JSON -/

/-- `json11::Json`, with the members of an object in the order of their names, and no numbers but
    `int`s. -/
inductive Json where
  | null
  | number (n : Int)
  | bool (b : Bool)
  | string (s : String)
  | array (items : List Json)
  | object (members : List (String × Json))

namespace Json

/-- `operator[]` -/
def get (j : Json) (key : String) : Json :=
  match j with
  | .object members => (members.lookup key).getD .null
  | _ => .null

def isNumber : Json → Bool
  | .number _ => true
  | _ => false

def isBool : Json → Bool
  | .bool _ => true
  | _ => false

def isString : Json → Bool
  | .string _ => true
  | _ => false

def isObject : Json → Bool
  | .object _ => true
  | _ => false

def intValue : Json → Int
  | .number n => n
  | _ => 0

def boolValue : Json → Bool
  | .bool b => b
  | _ => false

def stringValue : Json → String
  | .string s => s
  | _ => ""

end Json

/-! ## Lists of ports -/

/-- A range of ports, with its ends. -/
structure PortPair where
  source : UInt16
  dest : UInt16
  deriving DecidableEq

/-- `class RPortList`, but for the list it builds of all its ports. -/
structure RPortList where
  mSingleOnes : List UInt16 := []
  mValentines : List PortPair := []
  deriving DecidableEq

namespace RPortList

def empty (list : RPortList) : Bool := list.mSingleOnes.isEmpty && list.mValentines.isEmpty

/-- The texts, with a comma and a blank between two of them. -/
def commas : List String → String
  | [] => ""
  | [t] => t
  | t :: t' :: ts => t ++ ", " ++ commas (t' :: ts)

/-- A port as it stands in a list of ports. -/
def portText (port : UInt16) : String := Nat.repr port.toNat

/-- A range as it stands in a list of ports. -/
def rangeText (p : PortPair) : String := portText p.source ++ "-" ++ portText p.dest

def toString (list : RPortList) : String :=
  commas (list.mSingleOnes.map portText) ++
    if list.mValentines.isEmpty then ""
    else (if list.mSingleOnes.isEmpty then "" else ", ") ++ commas (list.mValentines.map rangeText)

/-- What `std::regex_search` finds of `(\d+-\d+)|(\d+)`: a number or two, and what follows them. -/
inductive Match where
  | single (digits suffix : List Char)
  | range (start stop suffix : List Char)

/-- The first match in the text. -/
def regexSearch (str : List Char) : Option Match :=
  let str := str.dropWhile fun ch => !ch.isDigit
  if str.isEmpty then none
  else
    let digits := str.takeWhile Char.isDigit
    let suffix := str.dropWhile Char.isDigit
    match suffix with
    | '-' :: rest =>
      let stop := rest.takeWhile Char.isDigit
      if stop.isEmpty then some (.single digits suffix)
      else some (.range digits stop (rest.dropWhile Char.isDigit))
    | _ => some (.single digits suffix)

/-- The loop of `FromString`; `none` is a range in a wrong format. Every round takes a character at
    least, which the fuel counts. -/
def parsePorts : (fuel : Nat) → (str : List Char) → RPortList → Except Thrown (Option RPortList)
  | 0, _, list => return some list
  | fuel + 1, str, list =>
    match regexSearch str with
    | none => return some list
    | some (.single digits suffix) => do
      let p ← stoi digits
      parsePorts fuel suffix { list with mSingleOnes := list.mSingleOnes ++ [UInt16.ofNat p] }
    | some (.range first last suffix) => do
      let start ← stoi first
      let stop ← stoi last
      if start ≥ stop ∨ start = 0 ∨ stop = 0 then return none
      else
        let p := ⟨UInt16.ofNat start, UInt16.ofNat stop⟩
        parsePorts fuel suffix { list with mValentines := list.mValentines ++ [p] }

/-- `FromString` into an empty list; `none` is the result `false`. -/
def fromString (s : String) : Except Thrown (Option RPortList) :=
  if s.toList.all fun ch => ch.isDigit || ch == ',' || ch == '-' || ch == ' ' then
    parsePorts s.toList.length s.toList {}
  else return none

end RPortList

/-! ## The configuration -/

def OM_PIPE_TCP : Int := 3

def OM_PIPE_UDP : Int := 12

def OM_PIPE_ALL : Int := 15

/-- `plog::Severity` -/
inductive Severity where
  | none | fatal | error | warning | info | debug | verbose
  deriving DecidableEq

/-- `struct RConfig::RParam` -/
structure RParam where
  dev : String := ""
  selfUnPath : String := ""
  localUdpIp : String := ""
  localUdpPort : UInt16 := 0
  selfCapIp : String := ""
  capPorts : RPortList := { mValentines := [⟨10001, 10010⟩] }
  targetIp : String := ""
  targetPort : UInt16 := 0
  appKeepAliveSec : UInt32 := 600
  selfCapInt : UInt32 := 0
  targetCapInt : UInt32 := 0
  hashKey : String := "hello135"
  id : IdBufType := Buf.zeros idBufSize
  type : Int := OM_PIPE_TCP
  cap_timeout : UInt16 := 10
  keepAliveIntervalSec : Int := 4

/-- `struct RConfig` -/
structure RConfig where
  log_level : Severity := .debug
  log_path : String := "/var/log/rsock/rsock.log"
  isServer : Bool := false
  isDaemon : Bool
  param : RParam := {}

/-- What the functions of the configuration use of the host and of json11. -/
structure ConfEnv where
  /-- `devWithIpv4`: the name of the first interface with the address. -/
  devWithIpv4 : String → Option String
  dump : Json → String
  /-- The value, and the error message. -/
  parse : String → Json × String

/-- `devIpMatch`: the device has the address. -/
def devIpMatch (env : ConfEnv) (dev ip : String) : Bool := env.devWithIpv4 ip == some dev

/-- One of the four numbers of an address. -/
def isOctet (digits : List Char) : Bool :=
  !digits.isEmpty && digits.all Char.isDigit && Nat.ofDigitChars 10 digits 0 ≤ 255 &&
    (digits.length == 1 || digits.head? != some '0')

/-- `inet_pton(AF_INET, src, _)`: 1 for an address, 0 for any other text. -/
def inetPton (src : String) : Int :=
  let octets := src.toList.splitOn '.'
  if octets.length = 4 ∧ octets.all isOctet then 1 else 0

/-- `ValidIp4` -/
def validIp4 (ip : String) : Bool := -1 ≠ inetPton ip

namespace RConfig

/-- A new `RConfig`; a release build runs as a daemon. -/
def new (nndebug isServer : Bool) : RConfig := { isServer := isServer, isDaemon := nndebug }

/-- `EmptyIdBuf` -/
def emptyIdBuf (id : IdBufType) : Bool := id.bytes.all (· == 0)

/-- `RConfig::CheckValidation` -/
def checkValidation (env : ConfEnv) (c : RConfig) : Except Thrown Unit := do
  let p := c.param
  Thrown.when (p.dev = "") (throw (.argsError "device empty. Please specify a device!"))
  Thrown.when (!c.isServer) do
    Thrown.assert (p.localUdpIp ≠ "")
    Thrown.assert (validIp4 p.localUdpIp)
  Thrown.when (!c.isServer) (Thrown.assert (p.localUdpPort ≠ 0))
  Thrown.assert (p.selfCapIp ≠ "")
  Thrown.assert (validIp4 p.selfCapIp)
  Thrown.assert (p.targetIp ≠ "")
  Thrown.assert (validIp4 p.targetIp)
  Thrown.assert (!p.capPorts.empty)
  Thrown.assert (p.selfCapInt ≠ 0)
  Thrown.assert (p.targetCapInt ≠ 0)
  Thrown.assert (!emptyIdBuf p.id)
  Thrown.assert (p.type = OM_PIPE_TCP ∨ p.type = OM_PIPE_UDP ∨ p.type = OM_PIPE_ALL)
  Thrown.assert (p.cap_timeout > 0 ∧ p.cap_timeout < 50)
  Thrown.assert (p.keepAliveIntervalSec > 0)
  Thrown.when (!devIpMatch env p.dev p.selfCapIp)
    (throw (.argsError ("dev " ++ p.dev ++ " and self capture ip " ++ p.selfCapIp ++ " not match")))
  Thrown.when (p.appKeepAliveSec < 10 ∨ p.appKeepAliveSec > 6000)
    (throw (.argsError "Duration must be in range [10, 6000]"))

/-- `RConfig::typeOfStr` -/
def typeOfStr (str : String) : Int :=
  if str = "tcp" then OM_PIPE_TCP
  else if str = "udp" then OM_PIPE_UDP
  else if str = "all" then OM_PIPE_ALL
  else OM_PIPE_TCP

/-- `RConfig::strOfType` -/
def strOfType (type : Int) : String :=
  if type = OM_PIPE_TCP then "tcp"
  else if type = OM_PIPE_UDP then "udp"
  else if type = OM_PIPE_ALL then "all"
  else "invalid"

/-- Whether the address could be parsed, and the `ip` and `port` it is parsed into. -/
def parseAddr (addr : String) (port : UInt16) (usePort : Bool) :
    Except Thrown (Bool × String × UInt16) :=
  let chars := addr.toList
  -- `none` is `npos`, which is greater than any position
  let pos := chars.findIdx? (· == ':')
  let ip := match pos with
    | none => addr
    | some pos => String.ofList (chars.take pos)
  if pos ≠ some 0 ∧ !validIp4 ip then return (false, ip, port)
  else if usePort then
    match pos with
    | none => return (false, ip, port)
    | some pos =>
      if pos < chars.length - 1 then
        let digits := chars.drop (pos + 1)
        if digits.all fun ch => '0' ≤ ch && ch ≤ '9' then do
          let port := UInt16.ofNat (← stoi digits)
          return (port ≠ 0, ip, port)
        else return (false, ip, port)
      else return (false, ip, port)
  else return (true, ip, port)

def addrText (ip : String) (port : UInt16) : String := ip ++ ":" ++ Nat.repr port.toNat

/-- The member `ludp`. -/
def ludp (c : RConfig) : String :=
  if c.isServer then c.param.localUdpIp else addrText c.param.localUdpIp c.param.localUdpPort

/-- The member `taddr`. -/
def taddr (c : RConfig) : String :=
  if c.isServer then addrText c.param.targetIp c.param.targetPort else c.param.targetIp

/-- The member `param` of `to_json`. -/
def paramToJson (c : RConfig) : Json :=
  let p := c.param
  .object [
    ("cap_timeout", .number p.cap_timeout.toNat),
    ("dev", .string p.dev),
    ("duration", .number p.appKeepAliveSec.toInt32.toInt),
    ("hash", .string p.hashKey),
    ("keepalive", .number p.keepAliveIntervalSec),
    ("lcapIp", .string p.selfCapIp),
    ("ludp", .string c.ludp),
    ("ports", .string p.capPorts.toString),
    ("taddr", .string c.taddr),
    ("type", .string (strOfType p.type)),
    ("unPath", .string p.selfUnPath)]

/-- `RConfig::to_json` -/
def toJson (c : RConfig) : Json :=
  .object [
    ("daemon", .bool c.isDaemon),
    ("log", .string c.log_path),
    ("param", paramToJson c),
    ("server", .bool c.isServer),
    ("verbose", .bool (c.log_level = .verbose))]

section Read

/-- A member that is read if it is a string. -/
def readString {α : Type} (o : Json) (key : String) (old : α) (set : String → α) : α :=
  if (o.get key).isString then set (o.get key).stringValue else old

/-- A member that is read if it is a number. -/
def readNumber {α : Type} (o : Json) (key : String) (old : α) (set : Int → α) : α :=
  if (o.get key).isNumber then set (o.get key).intValue else old

/-- The ports of a JSON object. -/
def readPorts (o : Json) (p : RParam) : Except Thrown RParam :=
  readString o "ports" (return p) fun s => do
    match ← RPortList.fromString s with
    | none => throw (.argsError ("Unable to parse capture port list: " ++ s))
    | some ports => return { p with capPorts := ports }

/-- A member that is an address; `what` is what the error message calls it. -/
def readAddr (o : Json) (key what : String) (p : RParam) (port : UInt16) (usePort : Bool)
    (set : String → UInt16 → RParam) : Except Thrown RParam :=
  readString o key (return p) fun s => do
    let (ok, ip, port) ← parseAddr s port usePort
    if ok then return set ip port
    else throw (.argsError ("Unable to parse " ++ what ++ ": " ++ s))

/-- The type of a JSON object. -/
def readType (o : Json) (p : RParam) : Except Thrown RParam :=
  readString o "type" (return p) fun s =>
    let type := typeOfStr s
    if type = 0 then throw (.argsError ("unable to parse " ++ s)) else return { p with type := type }

/-- `cap_timeout` is looked for as a string and then taken as a number. -/
def readCapTimeout (o : Json) (p : RParam) : RParam :=
  readString o "cap_timeout" p fun _ =>
    { p with cap_timeout := UInt16.ofInt (o.get "cap_timeout").intValue }

/-- What `parseJsonString` reads from the member `param`. -/
def parseParam (env : ConfEnv) (isServer : Bool) (p : RParam) (o : Json) : Except Thrown RParam := do
  let p := readString o "dev" p fun s => { p with dev := s }
  let p := readString o "lcapIp" p fun s =>
    let p := { p with selfCapIp := s }
    if (o.get "dev").isString then p else { p with dev := (env.devWithIpv4 s).getD p.dev }
  let p ← readPorts o p
  let p := readString o "unPath" p fun s => { p with selfUnPath := s }
  let p ← readAddr o "ludp" "local listening udp address" p p.localUdpPort (!isServer) fun ip port =>
    { p with localUdpIp := ip, localUdpPort := port }
  let p ← readAddr o "taddr" "target address" p p.targetPort isServer fun ip port =>
    { p with targetIp := ip, targetPort := port }
  let p := readNumber o "duration" p fun n => { p with appKeepAliveSec := UInt32.ofInt n }
  let p := readString o "hash" p fun s => { p with hashKey := s }
  let p ← readType o p
  let p := readCapTimeout o p
  return readNumber o "keepalive" p fun n => { p with keepAliveIntervalSec := n }

/-- `parseJsonString`, with the error message that it sets. -/
def parseJsonString (env : ConfEnv) (c : RConfig) (content : String) :
    Except Thrown (RConfig × String) :=
  let (json, err) := env.parse content
  if err ≠ "" then return (c, err)
  else do
    let c := readNumber json "daemon" c fun n => { c with isDaemon := n ≠ 0 }
    let verbose := json.get "verbose"
    let c :=
      if verbose.isBool then { c with log_level := if verbose.boolValue then .verbose else .debug }
      else c
    let c := readString json "log" c fun s => { c with log_path := s }
    let param ←
      if (json.get "param").isObject then parseParam env c.isServer c.param (json.get "param")
      else pure c.param
    return ({ c with param := param }, err)

end Read

end RConfig

end Rsock
