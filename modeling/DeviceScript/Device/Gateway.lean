/-!
# Commands and replies

A command goes to a device by way of a gateway.  The device answers with a reply, which may be a
refusal; a gateway that cannot deliver the command answers with an error instead; and a gateway may
crash while it handles the call, or never answer.  `Handling` says what happens to one call and how
long it takes.
-/

namespace DeviceScript

/-- How a device is attached. -/
inductive Connection where
  | network
  | usb
  /-- A stand-in without hardware. -/
  | simulated
  deriving Repr, DecidableEq, Inhabited

namespace Connection

/-- Every way to attach a device. -/
def all : List Connection :=
  [network, usb, simulated]

/-- The name of the way. -/
def name : Connection → String
  | network => "network"
  | usb => "usb"
  | simulated => "simulated"

end Connection

/-- A command for one device. -/
structure Request where
  device : String
  command : String
  deriving Repr, DecidableEq

/-- The answer of a device: whether it took the command, and a text if it has one to say. -/
structure Reply where
  success : Bool
  error : Option String := none
  deriving Repr, DecidableEq

namespace Reply

/-- The plain acknowledgement. -/
def ok : Reply := ⟨true, none⟩

/-- A refusal with a reason. -/
def rejected (reason : String) : Reply := ⟨false, some reason⟩

end Reply

/-- Why a gateway could not deliver a command. -/
inductive GatewayError where
  | unknownDevice (name : String)
  | notConnected (name : String)
  | emptyCommand
  | transport (reason : String)
  deriving Repr, DecidableEq

/-- The error in words. -/
def GatewayError.message : GatewayError → String
  | unknownDevice name => "unknown device: " ++ name
  | notConnected name => "device not connected: " ++ name
  | emptyCommand => "no command provided"
  | transport reason => "transport error: " ++ reason

/-- A crash in the middle of a call, with the text it left, if any. -/
structure Crash where
  text : Option String
  deriving Repr, DecidableEq

/-- What is said about a crash. -/
def Crash.message (c : Crash) : String :=
  c.text.getD "unknown panic"

/-- How a call ends, if it ends. -/
inductive CallResult where
  | replied (reply : Reply)
  | failed (error : GatewayError)
  | crashed (crash : Crash)
  deriving Repr, DecidableEq

/-- What happens to a call: it ends after so many thousandths of a second, or never. -/
inductive Handling where
  | after (ms : Nat) (result : CallResult)
  | never
  deriving Repr, DecidableEq

/-- How a call ends, and after how long: the time may be up before. -/
def Handling.limited (limit : Option Nat) : Handling → Option Nat × Option CallResult
  | .after ms r =>
    match limit with
    | some most => if ms ≤ most then (some ms, some r) else (some most, none)
    | none => (some ms, some r)
  | .never => (limit, none)

/-- What a device does with a command: a function of its name and the text of the command. -/
abbrev Handler := Request → Handling

end DeviceScript
