import Dora.Lib.LittleEndian
import Dora.Lib.Text
import Dora.Message.Id

/-!
# Zenoh keys (`libraries/core/src/topics.rs`)

The data of an output, its schema, the acknowledgements of its consumers and its control frames travel
under keys of their own. The parts of a key are joined by slashes, and a data id may contain slashes
itself; but it comes last, or in hexadecimal digits, and has no `@`.
-/

namespace Dora.Zenoh

open Lib

variable {Uuid : Type} (display : Uuid → String)

def networkId : String := "default"

def keyOf (dataflowId : Uuid) (plane : String) (nodeId : NodeId) (output : String) : String :=
  "dora/" ++ networkId ++ "/" ++ display dataflowId ++ "/" ++ plane ++ "/" ++ nodeId.name ++ "/" ++ output

def hexPair (byte : UInt8) : List Char :=
  [Nat.digitChar (byte.toNat / 16), Nat.digitChar (byte.toNat % 16)]

def hexKeySegment (id : DataId) : String :=
  String.ofList (id.name.toByteArray.data.toList.flatMap hexPair)

section Topics

variable (dataflowId : Uuid) (nodeId : NodeId) (outputId : DataId)

def zenohOutputPublishTopic : String := keyOf display dataflowId "output" nodeId outputId.name

def zenohOutputSchemaTopic : String := keyOf display dataflowId "schema" nodeId (hexKeySegment outputId)

def zenohOutputAckTopic : String := zenohOutputPublishTopic display dataflowId nodeId outputId ++ "/@ack"

def zenohDaemonControlTopic : String := keyOf display dataflowId "control" nodeId outputId.name

end Topics

inductive Plane where
  | data
  | schema
  | ack
  | control
deriving DecidableEq

def Plane.topic : Plane → Uuid → NodeId → DataId → String
  | .data => zenohOutputPublishTopic display
  | .schema => zenohOutputSchemaTopic display
  | .ack => zenohOutputAckTopic display
  | .control => zenohDaemonControlTopic display

def Plane.text : Plane → String
  | .data | .ack => "output"
  | .schema => "schema"
  | .control => "control"

def Plane.ending : Plane → DataId → String
  | .data, outputId | .control, outputId => outputId.name
  | .schema, outputId => hexKeySegment outputId
  | .ack, outputId => outputId.name ++ "/@ack"

variable {display} {d d' : Uuid} {n n' : NodeId} {o o' : DataId} {p p' : Plane}

theorem topic_eq (p : Plane) : p.topic display d n o = keyOf display d p.text n (p.ending o) := by
  cases p with
  | ack => simp only [Plane.topic, Plane.ending, Plane.text, zenohOutputAckTopic, zenohOutputPublishTopic,
      keyOf, String.append_assoc]
  | _ => rfl

theorem hexPair_injective : Function.Injective hexPair := by
  intro a b h
  have hdigit : ∀ m < 16, ∀ n < 16, Nat.digitChar m = Nat.digitChar n → m = n := by decide
  obtain ⟨hhigh, hlow, -⟩ : _ ∧ _ ∧ _ := by simpa only [hexPair, List.cons.injEq] using h
  have ha := a.toNat_lt
  have hb := b.toNat_lt
  have hhigh := hdigit _ (by omega) _ (by omega) hhigh
  have hlow := hdigit _ (by omega) _ (by omega) hlow
  exact UInt8.toNat_inj.mp (by omega)

theorem flatMap_hexPair_injective : Function.Injective (List.flatMap hexPair) := by
  intro l
  induction l with
  | nil =>
    rintro (_ | ⟨b, l'⟩) h
    · rfl
    · cases h
  | cons a l ih =>
    rintro (_ | ⟨b, l'⟩) h
    · cases h
    · rw [List.flatMap_cons, List.flatMap_cons] at h
      obtain ⟨hpair, hrest⟩ := List.append_inj h rfl
      rw [hexPair_injective hpair, ih hrest]

theorem hexKeySegment_injective : Function.Injective hexKeySegment := by
  intro a b h
  have hbytes := flatMap_hexPair_injective (String.ofList_injective h)
  exact DataId.name_injective (String.toByteArray_inj.mp (ByteArray.ext (Array.toList_inj.mp hbytes)))

theorem keyOf_inj {output output' : String} {plane plane' : String} (hinj : Function.Injective display)
    (hplain : ∀ u, '/' ∉ (display u).toList) (hplane : '/' ∉ plane.toList) (hplane' : '/' ∉ plane'.toList)
    (hn : '/' ∉ n.name.toList) (hn' : '/' ∉ n'.name.toList)
    (h : keyOf display d plane n output = keyOf display d' plane' n' output') :
    d = d' ∧ plane = plane' ∧ n = n' ∧ output = output' := by
  have hlist := congrArg String.toList h
  simp only [keyOf, String.toList_append, List.append_assoc, List.append_cancel_left_eq] at hlist
  obtain ⟨hd, hlist⟩ := append_sep_inj (hplain d) (hplain d') hlist
  obtain ⟨hp, hlist⟩ := append_sep_inj hplane hplane' hlist
  obtain ⟨hn, hlist⟩ := append_sep_inj hn hn' hlist
  exact ⟨hinj (String.toList_injective hd), String.toList_injective hp,
    NodeId.name_injective (String.toList_injective hn), String.toList_injective hlist⟩

/-- Within a plane the end of the key gives the output back, and only the acknowledgements have an `@`. -/
theorem ending_inj (ho : validateDataId o.name = .ok ()) (ho' : validateDataId o'.name = .ok ())
    (htext : p.text = p'.text) (h : p.ending o = p'.ending o') : p = p' ∧ o = o' := by
  have hat {o : DataId} (ho : validateDataId o.name = .ok ()) : '@' ∉ o.name.toList :=
    fun hmem => absurd (char_of_validateDataId ho hmem) (by decide)
  have hack (o : DataId) : '@' ∈ (Plane.ack.ending o).toList := by
    simp [Plane.ending]
  cases p <;> cases p' <;> try exact absurd htext (by decide)
  case data.data => exact ⟨rfl, DataId.name_injective h⟩
  case data.ack => exact absurd (h.symm ▸ hack o' : '@' ∈ (Plane.data.ending o).toList) (hat ho)
  case schema.schema => exact ⟨rfl, hexKeySegment_injective h⟩
  case ack.data => exact absurd (h ▸ hack o : '@' ∈ (Plane.data.ending o').toList) (hat ho')
  case ack.ack => exact ⟨rfl, DataId.name_injective ((String.append_left_inj _).mp h)⟩
  case control.control => exact ⟨rfl, DataId.name_injective h⟩

/-- Two keys are equal only on the same plane and for the same output of the same node of the same
dataflow, whatever the text of a dataflow's id, as long as it identifies the dataflow and has no slash. -/
theorem zenoh_keys_never_collide (hinj : Function.Injective display)
    (hplain : ∀ u, '/' ∉ (display u).toList)
    (hn : validateNodeId n.name = .ok ()) (hn' : validateNodeId n'.name = .ok ())
    (ho : validateDataId o.name = .ok ()) (ho' : validateDataId o'.name = .ok ()) :
    p.topic display d n o = p'.topic display d' n' o' ↔ p = p' ∧ d = d' ∧ n = n' ∧ o = o' := by
  refine ⟨fun h => ?_, by rintro ⟨rfl, rfl, rfl, rfl⟩; rfl⟩
  have hslash {n : NodeId} (hn : validateNodeId n.name = .ok ()) : '/' ∉ n.name.toList :=
    fun hmem => absurd (char_of_validateNodeId hn hmem) (by decide)
  have htext (p : Plane) : '/' ∉ p.text.toList := by cases p <;> decide
  rw [topic_eq, topic_eq] at h
  obtain ⟨hd, hplane, hnode, hending⟩ :=
    keyOf_inj hinj hplain (htext p) (htext p') (hslash hn) (hslash hn') h
  obtain ⟨hp, hout⟩ := ending_inj ho ho' hplane hending
  exact ⟨hp, hd, hnode, hout⟩

/-- The acknowledgements of `cmd` have a key of their own beside the data of `cmd/vel`. -/
theorem ack_apart_from_nested_output :
    let display (u : Fin 2) : String := uuidText (0x67e5504410b1426f9247bb680e5fe0c8 + u)
    Plane.ack.topic display 0 ⟨"planner"⟩ ⟨"cmd"⟩ ≠ Plane.data.topic display 0 ⟨"planner"⟩ ⟨"cmd/vel"⟩ :=
  fun h => absurd ((zenoh_keys_never_collide (by decide +kernel) (by decide +kernel) (by decide +kernel)
    (by decide +kernel) (by decide +kernel) (by decide +kernel)).mp h).1 (by decide)

end Dora.Zenoh
