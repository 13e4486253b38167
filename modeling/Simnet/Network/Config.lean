import Simnet.Clock

namespace Simnet

/-! Parameters of a whole network. -/

inductive EarlyBlockPolicy
  | accept
  | reject
  | defer
deriving DecidableEq, Repr

structure NetworkConfig where
  seed : Nat := 0
  /-- Messages with this delay or a longer one are dropped. -/
  discardAfter : Option Nat := none
  earlyBlockPolicy : EarlyBlockPolicy := .defer
  /-- Whether a second block of one producer at one height is ignored instead of
  ending the run. -/
  allowEquivocation : Bool := false
deriving DecidableEq, Repr

namespace NetworkConfig

def validate (config : NetworkConfig) : Except Error Unit :=
  if config.discardAfter = some 0 then
    .error (.invalidParameter .zeroDiscard)
  else
    .ok ()

def discards (config : NetworkConfig) (delay : Nat) : Bool :=
  match config.discardAfter with
  | none => false
  | some limit => limit ≤ delay

end NetworkConfig

end Simnet
