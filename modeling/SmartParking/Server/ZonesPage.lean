import SmartParking.Core.Layout
import SmartParking.Server.PageData
import SmartParking.Server.ZoneAgreement
import SmartParking.System.Filling

/-! # The page of the zones

`renderZonesDetailed` of `app.js` fetches each zone again and draws its slots. A slot counts
as taken when it has a vehicle, and the server writes a vehicle for every slot. So the page
looks the same, whatever is parked: only what a click on a slot tells is different.
-/
namespace SmartParking.Server
open Foundation Foundation.JsonText Foundation.JsonNumber Foundation.ListMaps ParkingSystem

/-- What `handleCarClick` is called with, where that is not the empty text and `Unknown`. -/
structure Car where
  plate : Option Tree
  owner : Option Tree

/-- A square of the grid, with a car where it is drawn as a taken one. -/
structure Cell where
  slotNumber : ℕ
  car : Option Car

/-- What is drawn of a zone: its id, which may be `undefined`, its name, where that is not
`Zone` with the id, and its slots. -/
structure Card where
  zoneId : Option Tree
  zoneName : Option Tree
  cells : List Cell

section View
variable (view : ParkingRequest → Allocation) (charIsSigned : Bool)

end View

section Render
variable (view : ParkingRequest → Allocation) (charIsSigned : Bool)

end Render

end SmartParking.Server
