/-
  EventTable — the catalog of all columns over events, and tables of events.
-/
import EventTable.Assembly
import EventTable.Columns.Attachment
import EventTable.Columns.Movement
import EventTable.Columns.Place
import EventTable.Columns.Sensor
import EventTable.Columns.StatusCode
import EventTable.Columns.Time

namespace EventTable

/-- All columns over events. -/
def eventColumns : List (Column Event) :=
  Columns.vehicleColumns ++ Columns.timeColumns ++ Columns.placeColumns ++
    Columns.movementColumns ++ Columns.statusColumns ++ Columns.sensorColumns ++
    Columns.attachmentColumns

/-- What holds of the columns about each subject holds of all columns. -/
theorem forall_mem_eventColumns {p : Column Event → Prop}
    (vehicle : ∀ column ∈ Columns.vehicleColumns, p column)
    (time : ∀ column ∈ Columns.timeColumns, p column)
    (place : ∀ column ∈ Columns.placeColumns, p column)
    (movement : ∀ column ∈ Columns.movementColumns, p column)
    (status : ∀ column ∈ Columns.statusColumns, p column)
    (fuel : ∀ column ∈ Columns.fuelColumns, p column)
    (engine : ∀ column ∈ Columns.engineColumns, p column)
    (air : ∀ column ∈ Columns.airColumns, p column)
    (attachment : ∀ column ∈ Columns.attachmentColumns, p column) :
    ∀ column ∈ eventColumns, p column := by
  simp only [eventColumns, Columns.sensorColumns, List.forall_mem_append]
  exact ⟨⟨⟨⟨⟨⟨vehicle, time⟩, place⟩, movement⟩, status⟩, ⟨fuel, engine⟩, air⟩, attachment⟩

/-- The catalog of all columns over events. -/
def eventCatalog : Catalog Event := ⟨eventColumns⟩

/-- The table of requested columns over events. -/
def assembleEvents (ctx : Context) (requests : List ColumnRequest) (events : List Event) : Table :=
  assemble eventCatalog ctx requests events

end EventTable
