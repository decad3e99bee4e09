import SpaceDataModule.JavaScript

/-! Flow documents as the compiler reads them, and the normalized program the
JavaScript interpreter loads. Fields neither reads are left out; a missing or
null field of a document is `none`. -/
namespace SpaceDataModule.Flow
open JavaScript

structure Node where
  nodeId : String
  pluginId : String := ""
  methodId : String := ""
  deriving DecidableEq

/-- An enumeration field of a document: a FlatBuffers code or a spelled name. -/
inductive EnumValue where
  | code (value : Nat)
  | text (value : String)
  deriving DecidableEq

/-- `String(value)`. -/
def EnumValue.spelled : EnumValue → String
  | .code value => toString value
  | .text value => value

structure Edge where
  fromNodeId : String
  fromPortId : String := ""
  toNodeId : String
  toPortId : String := ""
  backpressurePolicy : Option EnumValue := none
  /-- `Number(queueDepth)` of a declared depth. -/
  queueDepth : Option Number := none
  deriving DecidableEq

structure TriggerBinding where
  triggerId : String
  targetNodeId : String
  targetPortId : String
  queueDepth : Option Number := none
  deriving DecidableEq

structure Document where
  nodes : List Node
  edges : List Edge
  /-- The ids of `flow.triggers`. -/
  triggers : List String
  triggerBindings : List TriggerBinding
  /-- `flow.allowCycles === true`. -/
  allowCycles : Bool := false
  deriving DecidableEq

structure ProgramEdge where
  fromNodeId : String
  fromPortId : String
  toNodeId : String
  toPortId : String
  backpressurePolicy : String
  queueDepth : Number
  deriving DecidableEq

structure ProgramBinding where
  triggerId : String
  targetNodeId : String
  targetPortId : String
  backpressurePolicy : String
  queueDepth : Number
  deriving DecidableEq

structure Program where
  nodes : List Node
  edges : List ProgramEdge
  triggerBindings : List ProgramBinding
  deriving DecidableEq

end SpaceDataModule.Flow
