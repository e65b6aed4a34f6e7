import PlaySocket.Lib.Delimited
import PlaySocket.Lib.Exec

/-!
# SocketConfig

The options of a router socket, read from a comma-separated string by the
constructor of `SocketConfig` in `router_socket.hpp`.  The parsing is done by
cxxopts, a third-party library, of which `Cxxopts` is the part the constructor
uses.  What it logs is left out.
-/

namespace PlaySocket

open Exec

/-- The type an option is declared with. -/
inductive OptionType where
  | bool
  | int
deriving DecidableEq, Repr

structure OptionSpec where
  name : String
  description : String
  type : OptionType
deriving DecidableEq, Repr

/-- `options.parse` on declared options and a vector of arguments, and
`result[name].as<T>()`.  `ρ` is its `ParseResult` and `ε` its exceptions. -/
structure Cxxopts (ε ρ : Type) where
  parse : List OptionSpec → List (List Char) → Except ε ρ
  asBool : ρ → String → Except ε Bool
  asInt : ρ → String → Except ε Int32

/-- The members, with their defaults. -/
structure SocketConfig where
  immediate : Bool := true
  routerHandOver : Bool := true
  routerMandatory : Bool := true
  tcpKeepAlive : Int32 := 1
  tcpKeepAliveCount : Int32 := 5
  tcpKeepAliveInterval : Int32 := 1
  backLog : Int32 := 1000
  linger : Int32 := 0
  sendBufferSize : Int32 := 1024 * 1024
  receiveBufferSize : Int32 := 1024 * 1024
  sendHighWatermark : Int32 := 1000000
  receiveHighWatermark : Int32 := 1000000
deriving DecidableEq, Repr

namespace SocketConfig

variable {ε ρ : Type}

/-- The arguments of `add_options`. -/
def optionSpecs : List OptionSpec :=
  [ { name := "immediate", description := "Immediate option", type := .bool },
    { name := "router_handover", description := "Router handover option", type := .bool },
    { name := "router_mandatory", description := "Router mandatory option", type := .bool },
    { name := "tcp_keepalive", description := "TCP keepalive option", type := .int },
    { name := "tcp_keepalive_count", description := "TCP keepalive count option", type := .int },
    { name := "tcp_keepalive_interval", description := "TCP keepalive interval option",
      type := .int },
    { name := "backlog", description := "Backlog option", type := .int },
    { name := "linger", description := "Linger option", type := .int },
    { name := "send_buffer_size", description := "Send buffer size option", type := .int },
    { name := "receive_buffer_size", description := "Receive buffer size option", type := .int },
    { name := "send_high_watermark", description := "Send high watermark option", type := .int },
    { name := "receive_high_watermark", description := "Receive high watermark option",
      type := .int } ]

/-- `c_str()`, as a function that takes a C string sees it. -/
def cStr (text : List Char) : List Char := text.takeWhile (· ≠ Char.ofNat 0)

def fakeArgv (option : List Char) : List (List Char) :=
  "play_socket".toList :: (Delimited.pieces ',' option).map cStr

def setBool (cx : Cxxopts ε ρ) (result : ρ) (name : String)
    (put : Bool → SocketConfig → SocketConfig) : Exec ε SocketConfig Unit := do
  let value ← fromExcept (cx.asBool result name)
  update (put value)

def setInt (cx : Cxxopts ε ρ) (result : ρ) (name : String)
    (put : Int32 → SocketConfig → SocketConfig) : Exec ε SocketConfig Unit := do
  let value ← fromExcept (cx.asInt result name)
  update (put value)

def setBools (cx : Cxxopts ε ρ) (result : ρ) : Exec ε SocketConfig Unit := do
  setBool cx result "immediate" fun value c => { c with immediate := value }
  setBool cx result "router_handover" fun value c => { c with routerHandOver := value }
  setBool cx result "router_mandatory" fun value c => { c with routerMandatory := value }

def setInts (cx : Cxxopts ε ρ) (result : ρ) : Exec ε SocketConfig Unit := do
  setInt cx result "tcp_keepalive" fun value c => { c with tcpKeepAlive := value }
  setInt cx result "tcp_keepalive_count" fun value c => { c with tcpKeepAliveCount := value }
  setInt cx result "tcp_keepalive_interval" fun value c => { c with tcpKeepAliveInterval := value }
  setInt cx result "backlog" fun value c => { c with backLog := value }
  setInt cx result "linger" fun value c => { c with linger := value }
  setInt cx result "send_buffer_size" fun value c => { c with sendBufferSize := value }
  setInt cx result "receive_buffer_size" fun value c => { c with receiveBufferSize := value }
  setInt cx result "send_high_watermark" fun value c => { c with sendHighWatermark := value }
  setInt cx result "receive_high_watermark" fun value c => { c with receiveHighWatermark := value }

/-- `SocketConfig(option)`.  What was assigned before an exception stays. -/
def construct (cx : Cxxopts ε ρ) (option : List Char) : Exit ε SocketConfig Unit :=
  (attempt
    (do
      let result ← fromExcept (cx.parse optionSpecs (fakeArgv option))
      setBools cx result
      setInts cx result)
    (fun _ => pure ())).run {}

end SocketConfig

end PlaySocket
