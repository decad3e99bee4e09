import Mathlib.Algebra.Group.Nat.Defs
import Mathlib.Algebra.Group.Int.Defs
import Mathlib.Data.List.Basic

/-! Generated flow graph tables (`flow_generated.inc`) and the type-identity
checks over them. Table strings are C strings without their terminator; a null
pointer in a nullable column is `none`. -/
namespace SpaceDataModule.FlowRuntime

/-- The bytes of a C string up to its terminator; `strcmp` is equality here. -/
abbrev CString := List UInt8

structure FlowEdge where
  fromNode : Nat
  fromPort : CString
  toNode : Nat
  toPort : CString
  schemaName : Option CString := none
  fileIdentifier : Option CString := none
  schemaVersion : Option CString := none
  /-- `schema_hash` with `schema_hash_size`; the generator emits null for size zero. -/
  schemaHash : List UInt8 := []
  rootTypeName : Option CString := none
  canonicalFallbackAvailable : Bool := false
  alignedEligible : Bool := false
  alignedLayoutFields : Nat := 0
  alignedByteLength : Nat := 0
  alignedFixedStringLength : Nat := 0
  alignedRequiredAlignment : Nat := 0
  opaqueBytes : Bool := false
  deriving DecidableEq

structure FlowTriggerBinding where
  triggerIndex : Nat
  targetNode : Nat
  port : CString
  typeDescriptorIdx : Nat
  deriving DecidableEq

structure FlowRequiredPort where
  nodeIndex : Nat
  portId : CString
  deriving DecidableEq

/-- `kInvalidIndex`. -/
def invalidIndex : Nat := 0xFFFFFFFF

/-- The tables of one compiled flow. `g_edges` holds the route edges first and
one descriptor per trigger binding after them. Every index a row carries is
inside the table it points to, as the generator emits it. -/
structure FlowTables where
  nodeCount : Nat
  triggerCount : Nat
  routeEdgeCount : Nat
  edges : List FlowEdge
  triggerBindings : List FlowTriggerBinding
  requiredPorts : List FlowRequiredPort
  nodeIsLinked : Nat → Bool
  nodes_pos : 0 < nodeCount
  route_edges : routeEdgeCount ≤ edges.length
  edges_indexed : edges.length ≤ invalidIndex
  edges_valid : ∀ edge ∈ edges, edge.fromNode < nodeCount ∧ edge.toNode < nodeCount
  bindings_valid : ∀ binding ∈ triggerBindings, binding.triggerIndex < triggerCount ∧
    binding.targetNode < nodeCount ∧ binding.typeDescriptorIdx < edges.length

def isPowerOfTwo (value : Nat) : Bool :=
  value != 0 && (value &&& (value - 1)) == 0

namespace FlowTables
variable (tables : FlowTables)

/-- `flow_resolve_type_descriptor`: the view copies the edge's columns. -/
def resolveTypeDescriptor (index : Nat) : Option FlowEdge := tables.edges[index]?

/-- The route edges leaving `(node, port)`, with their table indices. -/
def matchingEdges (node : Nat) (port : CString) : List (FlowEdge × Nat) :=
  (tables.edges.take tables.routeEdgeCount).zipIdx.filter
    (fun row => row.1.fromNode == node && row.1.fromPort == port)

def bindingsOf (trigger : Nat) : List FlowTriggerBinding :=
  tables.triggerBindings.filter (fun binding => binding.triggerIndex == trigger)

theorem mem_matchingEdges (member : row ∈ tables.matchingEdges node port) :
    row.1 ∈ tables.edges ∧ tables.edges[row.2]? = some row.1 ∧
      row.2 < tables.routeEdgeCount := by
  obtain ⟨edge, index⟩ := row
  have found := List.mem_zipIdx_iff_getElem?.mp (List.mem_of_mem_filter member)
  have bound : index < tables.routeEdgeCount := by
    have short := (List.getElem?_eq_some_iff.mp found).1
    exact Nat.lt_of_lt_of_le short (List.length_take_le _ _)
  rw [List.getElem?_take_of_lt bound] at found
  exact ⟨List.mem_of_getElem? found, found, bound⟩

theorem mem_of_mem_bindingsOf (member : binding ∈ tables.bindingsOf trigger) :
    binding ∈ tables.triggerBindings :=
  List.mem_of_mem_filter member

end FlowTables

/-- `flow_type_identity_equal`. -/
def typeIdentityEqual (left right : FlowEdge) : Bool :=
  left.schemaName == right.schemaName && left.fileIdentifier == right.fileIdentifier &&
    left.schemaVersion == right.schemaVersion && left.rootTypeName == right.rootTypeName &&
    left.schemaHash == right.schemaHash

/-- `kFlowFlatbuffer`, `kFlowAlignedBinary`; larger wire formats are refused. -/
def flatbufferFormat : Nat := 0
def alignedBinaryFormat : Nat := 1

/-- `flow_binding_accepts_descriptor`. -/
def bindingAcceptsDescriptor (tables : FlowTables) (binding : FlowTriggerBinding)
    (descriptorIndex wireFormat : Nat) : Bool :=
  match tables.resolveTypeDescriptor binding.typeDescriptorIdx,
    tables.resolveTypeDescriptor descriptorIndex with
  | some bindingType, some providedType =>
    if !typeIdentityEqual bindingType providedType then false
    else if providedType.opaqueBytes || bindingType.opaqueBytes then
      providedType.opaqueBytes && bindingType.opaqueBytes
    else if wireFormat == flatbufferFormat then providedType.canonicalFallbackAvailable
    else
      providedType.alignedEligible && bindingType.alignedEligible &&
        providedType.alignedLayoutFields == bindingType.alignedLayoutFields &&
        providedType.alignedByteLength == bindingType.alignedByteLength &&
        providedType.alignedFixedStringLength == bindingType.alignedFixedStringLength &&
        providedType.alignedRequiredAlignment == bindingType.alignedRequiredAlignment
  | _, _ => false

end SpaceDataModule.FlowRuntime
