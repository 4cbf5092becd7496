import SmartParking.Server.ClientBodies
import SmartParking.Server.PageData

/-! # The names of vehicles

A name goes from a form through `JSON.stringify`, Crow's parser, the request that is stored
and `jsonEscape` back to a page. What comes back are the bytes of the name in UTF-8.
-/
namespace SmartParking.Server
open Foundation Foundation.JsonText Foundation.JsonString ParkingSystem

section Session
variable (trim : String → String) (parseInt : String → Option ℤ)

def vehicleIds (ps : ParkingSystem) : List String := ps.requests.map (·.vehicleId)

end Session

end SmartParking.Server
