import SmartParking.Foundation.JsonChars
import SmartParking.Foundation.ListMaps
import SmartParking.Server.Replies

/-! # The bodies are JSON

Every body that the server writes itself is in the grammar of JSON over bytes, and the tree
it reads as has what the handler has counted and found. Vehicles may have any bytes in their
names: a byte from 0x80 on is written as it is, and a name that is not UTF-8 gives a body
that is not UTF-8 either.
-/
namespace SmartParking.Server
open Foundation Foundation.JsonText Foundation.JsonNumber Foundation.ListMaps
open Foundation.OutputStream (plain turn write_plain writeInt_plain)
open Foundation.JsonString (quote IsChars IsRaw isChars_raw)

def integerTree (n : ℤ) : Tree := .number (integerText n)

/-- The text `Zone` with the id of a zone. -/
def zoneName (zoneId : ℤ) : List UInt8 := ascii "Zone " ++ integerText zoneId

def entryMembers (zoneId capacity occupiedSlots utilization : ℤ) : List (List UInt8 × Tree) :=
  [(ascii "id", integerTree zoneId), (ascii "name", .string (zoneName zoneId)),
    (ascii "capacity", integerTree capacity), (ascii "occupiedSlots", integerTree occupiedSlots),
    (ascii "utilization", integerTree utilization)]

def entryTree (entry : ZoneEntry) : Option Tree := do
  let capacity ← entry.capacity
  let occupiedSlots ← entry.occupiedSlots
  let utilization ← entry.utilization
  some (.object (entryMembers entry.id capacity occupiedSlots utilization))

def zonesTree (ps : ParkingSystem) : Option Tree := do
  let items ← (ps.zones.map zoneEntry).mapM entryTree
  some (.object [(ascii "zones", .array items)])

section View
variable (view : ParkingRequest → Allocation) (charIsSigned : Bool)

def vehicleTree (vehicleId : List UInt8) : Tree :=
  .object [(ascii "vehicleId", .string (jsonEscape charIsSigned vehicleId)),
    (ascii "ownerName", .string (ascii "Guest"))]

def slotTree (ps : ParkingSystem) (zone : Zone) (slot : ParkingSlot) : Tree :=
  .object [(ascii "id", integerTree slot.slotId), (ascii "occupied", .bool (!slot.isAvailable)),
    (ascii "vehicle", vehicleTree charIsSigned (occupant view ps zone slot))]

def detailTree (ps : ParkingSystem) (zone : Zone) : Tree :=
  .object [(ascii "id", integerTree zone.zoneId), (ascii "name", .string (zoneName zone.zoneId)),
    (ascii "slots", .array (zone.slots.map (slotTree view charIsSigned ps zone)))]

def requestTree (req : ParkingRequest) : Tree :=
  .object [(ascii "id", integerTree req.requestId),
    (ascii "vehicleId", .string (jsonEscape charIsSigned (view req).licensePlate)),
    (ascii "zoneId", integerTree (view req).allocatedZoneId),
    (ascii "slotNumber", integerTree (view req).allocatedSlotId),
    (ascii "status", .string (statusText req.currentState)), (ascii "timestamp", .string (ascii "Recently"))]

def requestsTree (ps : ParkingSystem) : Tree :=
  .object [(ascii "requests", .array (ps.requests.map (requestTree view charIsSigned)))]

end View

def dashboardMembers (dashboard : Dashboard) : Option (List (List UInt8 × Tree)) := do
  let occupiedSlots ← dashboard.occupiedSlots
  let activeRequests ← dashboard.activeRequests
  let utilization ← dashboard.utilization
  some [(ascii "totalZones", integerTree dashboard.totalZones), (ascii "occupiedSlots", integerTree occupiedSlots),
    (ascii "activeRequests", integerTree activeRequests), (ascii "utilization", integerTree utilization)]

def createdMembers (newId : ℤ) : List (List UInt8 × Tree) :=
  [(ascii "id", integerTree newId), (ascii "requestId", integerTree newId)]

def spacedMembers : List (List UInt8 × Tree) → List (List UInt8)
  | [] => []
  | m :: members =>
    memberText m.1 [0x20] (write m.2) :: members.map fun m => 0x20 :: memberText m.1 [0x20] (write m.2)

/-- An object with a blank after each colon and each comma. -/
def spacedText (members : List (List UInt8 × Tree)) : List UInt8 :=
  openBrace :: (joined (spacedMembers members) ++ [closeBrace])

/-- A counter that has counted more than an `int` holds has no value. -/
theorem foldlM_countSlot (slots : List ParkingSlot) {counts : ℤ × ℤ} (hpos : 0 ≤ counts.2) (hle : counts.2 ≤ counts.1)
    (hlt : counts.1 < 2 ^ 31) : slots.foldlM countSlot counts =
      if counts.1 + slots.length < 2 ^ 31 then some (slots.foldl tally counts) else none := by
  induction slots generalizing counts with
  | nil =>
    rw [List.length_nil, Nat.cast_zero, add_zero, if_pos hlt]
    rfl
  | cons slot slots ih =>
    rw [List.foldlM_cons, List.foldl_cons, List.length_cons, Nat.cast_succ]
    by_cases hroom : counts.1 + 1 < 2 ^ 31
    · obtain ⟨hvalue, hpos', hle', -⟩ := countSlot_of_hasRoom slot [] counts ⟨hpos, hle, by simpa using hroom⟩
      have htotal : (tally counts slot).1 = counts.1 + 1 := rfl
      have hsum : counts.1 + 1 + (slots.length : ℤ) = counts.1 + ((slots.length : ℤ) + 1) := by omega
      rw [hvalue, Option.bind_eq_bind, Option.bind_some, ih hpos' hle' (by omega), htotal, hsum]
    · have hnone : countSlot counts slot = none := by
        rw [countSlot, signed_of_le (by omega)]
        rfl
      rw [hnone, if_neg (by omega)]
      rfl

/-- The counts of a zone, as an entry of the zone list has them. -/
theorem countZone_eq (zone : Zone) :
    countZone (0, 0) zone = (zoneEntry zone).capacity.bind fun total =>
      (zoneEntry zone).occupiedSlots.map fun occupied => (total, occupied) := by
  have hloop : countZone (0, 0) zone = zone.slots.foldlM countSlot (0, 0) := by
    rw [Zone.slots, CheckedLoop.foldlM_flatMap]
    rfl
  have hcount := zone.occupied_le
  rw [hloop, foldlM_countSlot zone.slots (by decide) (by decide) (by decide), foldl_tally, zoneEntry]
  simp only [zero_add]
  by_cases hlt : (zone.slots.length : ℤ) < 2 ^ 31
  · rw [if_pos hlt, signed_of_lt (by omega) hlt, signed_of_lt (by omega) (by omega)]
    rfl
  · rw [if_neg hlt, signed_of_le (by omega)]
    rfl

theorem writeZone_eq (text : List UInt8) (zone : Zone) :
    writeZone (plain text) zone = ((entryTree (zoneEntry zone)).map write).map fun s => plain (text ++ s) := by
  rw [writeZone, countZone_eq, entryTree]
  have hutilization : (zoneEntry zone).utilization = (zoneEntry zone).occupiedSlots.bind fun occupied =>
      (zoneEntry zone).capacity.bind fun total => roundPercent occupied total := by
    simp only [zoneEntry, Option.bind_eq_bind]
  rw [hutilization]
  cases (zoneEntry zone).capacity with
  | none => rfl
  | some total =>
    cases (zoneEntry zone).occupiedSlots with
    | none => rfl
    | some occupied =>
      simp only [Option.bind_eq_bind, Option.bind_some, Option.map_some]
      cases roundPercent occupied total with
      | none => rfl
      | some ut =>
        simp only [Option.bind_some, Option.map_some, write_plain, writeInt_plain, List.append_assoc]
        rw [write]
        simp only [entryMembers, writeMembers, joined, memberText, write, integerTree, zoneName, quoted,
          List.append_assoc, List.cons_append, List.nil_append]
        rfl

/-- The zone list is written without blanks. -/
theorem zonesText_eq (ps : ParkingSystem) : zonesText ps = (zonesTree ps).map write := by
  rw [zonesText, OutputStream.new_eq_plain, write_plain]
  dsimp only
  rw [OutputStream.foldlM_turn writeZone_eq, mapM_map_some, zonesTree, List.mapM_map, Function.comp_def]
  cases ps.zones.mapM fun zone => entryTree (zoneEntry zone) with
  | none => rfl
  | some items =>
    simp only [Option.map_some, Option.bind_eq_bind, Option.bind_some, write_plain, OutputStream.plain_text, write,
      writeMembers, writeItems_eq, joined, memberText, quoted, List.append_assoc, List.cons_append, List.nil_append]
    rfl

section View
variable (view : ParkingRequest → Allocation) (charIsSigned : Bool)

theorem writeRequest_eq (text : List UInt8) (req : ParkingRequest) :
    writeRequest view charIsSigned (plain text) req =
      (some (write (requestTree view charIsSigned req))).map fun s => plain (text ++ s) := by
  rw [writeRequest, requestTree, write]
  simp only [write_plain, writeInt_plain, Option.map_some, writeMembers, joined, memberText, write, integerTree, quoted,
    List.append_assoc, List.cons_append, List.nil_append]
  rfl

/-- The list of requests is written without blanks. -/
theorem requestsText_eq (ps : ParkingSystem) :
    requestsText view charIsSigned ps = some (write (requestsTree view charIsSigned ps)) := by
  have hmap : (ps.requests.mapM fun req => some (write (requestTree view charIsSigned req))) =
      some (ps.requests.map fun req => write (requestTree view charIsSigned req)) := List.mapM_pure
  rw [requestsText, OutputStream.new_eq_plain, write_plain]
  dsimp only
  rw [OutputStream.foldlM_turn (writeRequest_eq view charIsSigned), hmap, requestsTree]
  simp only [Option.map_some, Option.bind_eq_bind, Option.bind_some, write_plain, OutputStream.plain_text, write,
    writeMembers, writeItems_eq, joined, memberText, quoted, List.append_assoc, List.cons_append, List.nil_append,
    List.map_map]
  rfl

/-- The text of a slot, which has a blank after two of its colons. -/
def slotText (ps : ParkingSystem) (zone : Zone) (slot : ParkingSlot) : List UInt8 :=
  let vehicle := openBrace :: (joined
    [memberText (ascii "vehicleId") [0x20] (quoted (jsonEscape charIsSigned (occupant view ps zone slot))),
      memberText (ascii "ownerName") [0x20] (quoted (ascii "Guest"))] ++ [closeBrace])
  openBrace :: (joined [memberText (ascii "id") [] (integerText slot.slotId),
    memberText (ascii "occupied") [] (boolText (!slot.isAvailable)),
    memberText (ascii "vehicle") [0x20] vehicle] ++ [closeBrace])

theorem writeSlot_eq (ps : ParkingSystem) (zone : Zone) (text : List UInt8) (slot : ParkingSlot) :
    writeSlot view charIsSigned ps zone (plain text) slot =
      (some (slotText view charIsSigned ps zone slot)).map fun s => plain (text ++ s) := by
  have hoccupied : (if !slot.isAvailable then ascii "true" else ascii "false") = boolText (!slot.isAvailable) := rfl
  rw [writeSlot, slotText, hoccupied]
  simp only [write_plain, writeInt_plain, Option.map_some, joined, memberText, quoted, List.append_assoc,
    List.cons_append, List.nil_append]
  rfl

theorem zoneText_eq (ps : ParkingSystem) (zone : Zone) : zoneText view charIsSigned ps zone =
    some (openBrace :: (joined [memberText (ascii "id") [] (integerText zone.zoneId),
      memberText (ascii "name") [] (quoted (zoneName zone.zoneId)),
      memberText (ascii "slots") [] (openBracket ::
        (joined (zone.slots.map (slotText view charIsSigned ps zone)) ++ [closeBracket]))] ++ [closeBrace])) := by
  have hmap : (zone.slots.mapM fun slot => some (slotText view charIsSigned ps zone slot)) =
      some (zone.slots.map (slotText view charIsSigned ps zone)) := List.mapM_pure
  rw [zoneText, OutputStream.new_eq_plain]
  simp only [write_plain, writeInt_plain]
  rw [← CheckedLoop.foldlM_flatMap, ← Zone.slots, OutputStream.foldlM_turn (writeSlot_eq view charIsSigned ps zone),
    hmap]
  simp only [Option.map_some, Option.bind_eq_bind, Option.bind_some, write_plain, OutputStream.plain_text, joined,
    memberText, quoted, zoneName, List.append_assoc, List.cons_append, List.nil_append]
  rfl

end View

theorem spacedText_four (k₁ k₂ k₃ k₄ : List UInt8) (n₁ n₂ n₃ n₄ : ℤ) :
    [openBrace] ++ (quoted k₁ ++ [colon, 0x20]) ++ integerText n₁ ++ [comma, 0x20] ++ (quoted k₂ ++ [colon, 0x20]) ++
      integerText n₂ ++ [comma, 0x20] ++ (quoted k₃ ++ [colon, 0x20]) ++ integerText n₃ ++ [comma, 0x20] ++
      (quoted k₄ ++ [colon, 0x20]) ++ integerText n₄ ++ [closeBrace] =
    spacedText [(k₁, integerTree n₁), (k₂, integerTree n₂), (k₃, integerTree n₃), (k₄, integerTree n₄)] := by
  simp only [spacedText, spacedMembers, List.map_cons, List.map_nil, joined, memberText, write, integerTree,
    List.append_assoc, List.cons_append, List.nil_append]

theorem dashboardText_eq (ps : ParkingSystem) :
    dashboardText ps = ((handleGetDashboard ps).body.bind dashboardMembers).map spacedText := by
  have hzones : ascii "\"totalZones\": " = quoted (ascii "totalZones") ++ [colon, 0x20] := by decide
  have hslots : ascii "\"occupiedSlots\": " = quoted (ascii "occupiedSlots") ++ [colon, 0x20] := by decide
  have hactive : ascii "\"activeRequests\": " = quoted (ascii "activeRequests") ++ [colon, 0x20] := by decide
  have hutilization : ascii "\"utilization\": " = quoted (ascii "utilization") ++ [colon, 0x20] := by decide
  have hcomma : ascii ", " = [comma, 0x20] := by decide
  have hopen : ascii "\x7b" = [openBrace] := by decide
  have hclose : ascii "\x7d" = [closeBrace] := by decide
  rw [dashboardText, handleGetDashboard, OutputStream.new_eq_plain, Option.bind_some, dashboardMembers]
  cases ps.zones.foldlM countZone (0, 0) with
  | none => rfl
  | some counts =>
    obtain ⟨totalSlots, occupiedSlots⟩ := counts
    simp only [Option.map_some, Option.bind_eq_bind, Option.bind_some]
    cases ps.requests.foldlM countActive 0 with
    | none => rfl
    | some activeRequests =>
      simp only [Option.bind_some]
      cases roundPercent occupiedSlots totalSlots with
      | none => rfl
      | some utilization =>
        simp only [Option.bind_some, Option.map_some, write_plain, writeInt_plain, OutputStream.plain_text, hzones,
          hslots, hactive, hutilization, hcomma, hopen, hclose]
        rw [List.nil_append, spacedText_four]

theorem createdText_eq (newId : ℤ) : createdText newId = spacedText (createdMembers newId) := by
  rw [createdText, OutputStream.new_eq_plain, createdMembers]
  simp only [write_plain, writeInt_plain, OutputStream.plain_text, spacedText, spacedMembers, List.map_cons,
    List.map_nil, joined, memberText, write, integerTree, quoted, List.append_assoc, List.cons_append, List.nil_append]
  rfl

theorem digit_raw : ∀ d ∈ digitChars, IsRaw d := by decide

theorem isRaw_integerText (n : ℤ) : ∀ b ∈ integerText n, IsRaw b := by
  have hdigits : ∀ b ∈ natText n.natAbs, IsRaw b := fun b hb =>
    digit_raw b ((isInteger_natText n.natAbs).allDigits b hb)
  unfold integerText
  split
  · exact List.forall_mem_cons.mpr ⟨by decide, hdigits⟩
  · exact hdigits

theorem isChars_zoneName (zoneId : ℤ) : IsChars (zoneName zoneId) ((zoneName zoneId).map UInt8.toNat) := by
  apply isChars_raw
  rw [zoneName, List.forall_mem_append]
  exact ⟨by decide, isRaw_integerText zoneId⟩

theorem isChars_jsonEscape (charIsSigned : Bool) (text : List UInt8) :
    IsChars (jsonEscape charIsSigned text) (text.map UInt8.toNat) := by
  rw [jsonEscape_eq]
  exact IsChars.of_flatMap escaped_isChar text

theorem isChars_statusText (state : ParkingRequest.State) :
    IsChars (statusText state) ((statusText state).map UInt8.toNat) := by
  apply isChars_raw
  cases state <;> decide

theorem isBody_raw {body : List UInt8} (h : ∀ b ∈ body, IsRaw b) : standard.IsBody body := ⟨_, isChars_raw h⟩

section Fits
variable (n : ℕ)

theorem fits_integerTree (m : ℤ) : (integerTree m).Fits standard n := by
  cases n <;> exact isNumber_integerText m

theorem fits_string {body : List UInt8} {vs : List ℕ} (h : IsChars body vs) : (Tree.string body).Fits standard n := by
  cases n <;> exact ⟨vs, h⟩

theorem fits_entryTree {entry : ZoneEntry} {t : Tree} (h : entryTree entry = some t) : t.Fits standard (n + 1) := by
  simp only [entryTree, Option.bind_eq_bind, Option.bind_eq_some_iff, Option.some_inj] at h
  obtain ⟨capacity, -, occupiedSlots, -, utilization, -, rfl⟩ := h
  rw [Tree.fits_object, entryMembers]
  simp only [List.forall_mem_cons, List.not_mem_nil, false_implies, implies_true, and_true]
  exact ⟨⟨isBody_raw (by decide), fits_integerTree _ _⟩, ⟨isBody_raw (by decide), fits_string _ (isChars_zoneName _)⟩,
    ⟨isBody_raw (by decide), fits_integerTree _ _⟩, ⟨isBody_raw (by decide), fits_integerTree _ _⟩,
    ⟨isBody_raw (by decide), fits_integerTree _ _⟩⟩

/-- An object with one list in it. -/
theorem fits_listing {key : List UInt8} {items : List Tree} (hkey : ∀ b ∈ key, IsRaw b)
    (hitems : ∀ t ∈ items, t.Fits standard n) : (Tree.object [(key, .array items)]).Fits standard (n + 2) := by
  rw [Tree.fits_object, List.forall_mem_singleton]
  exact ⟨isBody_raw hkey, hitems⟩

theorem fits_zonesTree {ps : ParkingSystem} {t : Tree} (h : zonesTree ps = some t) : t.Fits standard 3 := by
  obtain ⟨items, hitems, hobject⟩ := Option.bind_eq_some_iff.mp h
  obtain rfl := Option.some.inj hobject
  exact fits_listing 1 (by decide) (forall_of_mapM (fun _ _ hentry => fits_entryTree 0 hentry) hitems)

variable (view : ParkingRequest → Allocation) (charIsSigned : Bool)

theorem fits_requestTree (req : ParkingRequest) : (requestTree view charIsSigned req).Fits standard (n + 1) := by
  rw [requestTree, Tree.fits_object]
  simp only [List.forall_mem_cons, List.not_mem_nil, false_implies, implies_true, and_true]
  exact ⟨⟨isBody_raw (by decide), fits_integerTree _ _⟩,
    ⟨isBody_raw (by decide), fits_string _ (isChars_jsonEscape charIsSigned _)⟩,
    ⟨isBody_raw (by decide), fits_integerTree _ _⟩, ⟨isBody_raw (by decide), fits_integerTree _ _⟩,
    ⟨isBody_raw (by decide), fits_string _ (isChars_statusText _)⟩,
    isBody_raw (by decide), fits_string _ (isChars_raw (by decide))⟩

theorem fits_requestsTree (ps : ParkingSystem) : (requestsTree view charIsSigned ps).Fits standard 3 :=
  fits_listing 1 (by decide) (List.forall_mem_map.mpr fun req _ => fits_requestTree 0 view charIsSigned req)

theorem fits_dashboardMembers {dashboard : Dashboard} {members : List (List UInt8 × Tree)}
    (h : dashboardMembers dashboard = some members) : (Tree.object members).Fits standard (n + 1) := by
  simp only [dashboardMembers, Option.bind_eq_bind, Option.bind_eq_some_iff, Option.some_inj] at h
  obtain ⟨occupiedSlots, -, activeRequests, -, utilization, -, rfl⟩ := h
  rw [Tree.fits_object]
  simp only [List.forall_mem_cons, List.not_mem_nil, false_implies, implies_true, and_true]
  exact ⟨⟨isBody_raw (by decide), fits_integerTree _ _⟩, ⟨isBody_raw (by decide), fits_integerTree _ _⟩,
    ⟨isBody_raw (by decide), fits_integerTree _ _⟩, isBody_raw (by decide), fits_integerTree _ _⟩

theorem fits_createdMembers (newId : ℤ) : (Tree.object (createdMembers newId)).Fits standard (n + 1) := by
  rw [createdMembers, Tree.fits_object]
  simp only [List.forall_mem_cons, List.not_mem_nil, false_implies, implies_true, and_true]
  exact ⟨⟨isBody_raw (by decide), fits_integerTree _ _⟩, isBody_raw (by decide), fits_integerTree _ _⟩

end Fits

section Documents
variable (n : ℕ)

theorem isBlank_space : IsBlank [0x20] := by unfold IsBlank; decide

theorem isValue_integerText (m : ℤ) : IsValue standard n (integerText m) (integerTree m) :=
  IsLeaf.value (IsLeaf.number (isNumber_integerText m)) n

theorem isValue_quoted {body : List UInt8} {vs : List ℕ} (h : IsChars body vs) :
    IsValue standard n (quoted body) (.string body) := by
  have hleaf : IsLeaf standard (quoted body) (.string body) := IsLeaf.string ⟨vs, h⟩
  exact hleaf.value n

/-- A member with a key of raw characters. -/
theorem padded_member {P : List UInt8 → Tree → Prop} {key blank text : List UInt8} {t : Tree}
    (hkey : ∀ b ∈ key, IsRaw b) (hblank : IsBlank blank) (h : P text t) :
    Padded (IsMember standard P) (memberText key blank text) (key, t) :=
  padded (isMember_memberText (isBody_raw hkey) hblank h)

theorem isValue_spacedText {members : List (List UInt8 × Tree)} (h : (Tree.object members).Fits standard (n + 1)) :
    IsValue standard (n + 1) (spacedText members) (.object members) := by
  have hmember : ∀ m ∈ members, IsMember standard (IsValue standard n) (memberText m.1 [0x20] (write m.2)) m :=
    fun m hm => isMember_memberText (h m hm).1 isBlank_space (write_isValue (h m hm).2)
  apply isValue_object
  cases members with
  | nil => exact List.Forall₂.nil
  | cons m members =>
    obtain ⟨hfirst, hrest⟩ := List.forall_mem_cons.mp hmember
    refine List.Forall₂.cons (padded hfirst) (forall₂_map_self fun m' hm' => ?_)
    have hspaced := Padded.mk isBlank_space (hrest m' hm') isBlank_nil
    rwa [List.append_nil] at hspaced

variable (view : ParkingRequest → Allocation) (charIsSigned : Bool)

theorem isValue_slotText (ps : ParkingSystem) (zone : Zone) (slot : ParkingSlot) :
    IsValue standard (n + 2) (slotText view charIsSigned ps zone slot) (slotTree view charIsSigned ps zone slot) := by
  have hvehicle : IsValue standard (n + 1) _ (vehicleTree charIsSigned (occupant view ps zone slot)) :=
    isValue_object (List.Forall₂.cons
      (padded_member (by decide) isBlank_space (isValue_quoted n (isChars_jsonEscape charIsSigned _)))
      (List.Forall₂.cons (padded_member (by decide) isBlank_space (isValue_quoted n (isChars_raw (by decide))))
        List.Forall₂.nil))
  exact isValue_object (List.Forall₂.cons (padded_member (by decide) isBlank_nil (isValue_integerText _ slot.slotId))
    (List.Forall₂.cons (padded_member (by decide) isBlank_nil (IsLeaf.value (IsLeaf.bool (!slot.isAvailable)) _))
      (List.Forall₂.cons (padded_member (by decide) isBlank_space hvehicle) List.Forall₂.nil)))

theorem isValue_detail (ps : ParkingSystem) (zone : Zone) :
    ∃ body, zoneText view charIsSigned ps zone = some body ∧
      IsValue standard 4 body (detailTree view charIsSigned ps zone) := by
  have hforall : List.Forall₂ (Padded (IsValue standard 2)) (zone.slots.map (slotText view charIsSigned ps zone))
      (zone.slots.map (slotTree view charIsSigned ps zone)) := by
    rw [List.forall₂_map_left_iff, List.forall₂_map_right_iff]
    exact List.forall₂_same.mpr fun slot _ => padded (isValue_slotText 0 view charIsSigned ps zone slot)
  have hslots := isValue_array hforall
  refine ⟨_, zoneText_eq view charIsSigned ps zone, ?_⟩
  exact isValue_object (List.Forall₂.cons (padded_member (by decide) isBlank_nil (isValue_integerText _ zone.zoneId))
    (List.Forall₂.cons (padded_member (by decide) isBlank_nil (isValue_quoted _ (isChars_zoneName zone.zoneId)))
      (List.Forall₂.cons (padded_member (by decide) isBlank_nil hslots) List.Forall₂.nil)))

end Documents

/-- The body is a document of JSON over bytes, and it can be read in one way only. -/
structure Reads (body : List UInt8) (t : Tree) : Prop where
  document : ∃ n, IsDocument standard n body t
  only : ∀ D n t', IsDocument D n body t' → t' = t

theorem IsValue.reads {n : ℕ} {body : List UInt8} {t : Tree} (h : IsValue standard n body t) : Reads body t :=
  ⟨⟨n, padded h⟩, fun _ _ _ h' => h'.unique (padded h)⟩

section Reads
variable (view : ParkingRequest → Allocation) (charIsSigned : Bool)

theorem reads_zonesText {ps : ParkingSystem} {body : List UInt8} (h : zonesText ps = some body) :
    ∃ t, zonesTree ps = some t ∧ Reads body t := by
  rw [zonesText_eq] at h
  obtain ⟨t, ht, rfl⟩ := Option.map_eq_some_iff.mp h
  exact ⟨t, ht, IsValue.reads (write_isValue (fits_zonesTree ht))⟩

theorem reads_zoneText (ps : ParkingSystem) (zone : Zone) :
    ∃ body, zoneText view charIsSigned ps zone = some body ∧ Reads body (detailTree view charIsSigned ps zone) := by
  obtain ⟨body, hbody, hvalue⟩ := isValue_detail view charIsSigned ps zone
  exact ⟨body, hbody, IsValue.reads hvalue⟩

theorem reads_requestsText (ps : ParkingSystem) :
    ∃ body, requestsText view charIsSigned ps = some body ∧ Reads body (requestsTree view charIsSigned ps) :=
  ⟨_, requestsText_eq view charIsSigned ps, IsValue.reads (write_isValue (fits_requestsTree view charIsSigned ps))⟩

theorem reads_dashboardText {ps : ParkingSystem} {body : List UInt8} (h : dashboardText ps = some body) :
    ∃ dashboard members, (handleGetDashboard ps).body = some dashboard ∧ dashboardMembers dashboard = some members ∧
      Reads body (.object members) := by
  rw [dashboardText_eq] at h
  obtain ⟨members, hmembers, rfl⟩ := Option.map_eq_some_iff.mp h
  obtain ⟨dashboard, hdashboard, hmembers⟩ := Option.bind_eq_some_iff.mp hmembers
  exact ⟨dashboard, members, hdashboard, hmembers,
    IsValue.reads (isValue_spacedText 0 (fits_dashboardMembers 0 hmembers))⟩

theorem reads_createdText (newId : ℤ) : Reads (createdText newId) (.object (createdMembers newId)) := by
  rw [createdText_eq]
  exact IsValue.reads (isValue_spacedText 0 (fits_createdMembers 0 newId))

/-- The bodies of all answers can be read, as what the handlers have found. -/
structure Readable (ps : ParkingSystem) : Prop where
  zones : ∀ body, zonesText ps = some body → ∃ t, zonesTree ps = some t ∧ Reads body t
  detail : ∀ zone, ∃ body, zoneText view charIsSigned ps zone = some body ∧
    Reads body (detailTree view charIsSigned ps zone)
  requests : ∃ body, requestsText view charIsSigned ps = some body ∧ Reads body (requestsTree view charIsSigned ps)
  dashboard : ∀ body, dashboardText ps = some body → ∃ dashboard members,
    (handleGetDashboard ps).body = some dashboard ∧ dashboardMembers dashboard = some members ∧
      Reads body (.object members)
  created : ∀ newId, Reads (createdText newId) (.object (createdMembers newId))

theorem replies_readable (ps : ParkingSystem) : Readable view charIsSigned ps where
  zones _ := reads_zonesText
  detail := reads_zoneText view charIsSigned ps
  requests := reads_requestsText view charIsSigned ps
  dashboard _ := reads_dashboardText
  created := reads_createdText

end Reads

end SmartParking.Server
