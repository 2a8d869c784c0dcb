import VolumeWatch.Calendar.Zone

/-!
The zones that the command knows by name.
-/

namespace VolumeWatch.Command

open Calendar

def knownZones : List Zone :=
  [.fixed "UTC" 0,
    .newYork,
    ⟨"America/Chicago", -21036, ZoneTable.chicago, some (Zone.northAmerican (-21600))⟩,
    { Zone.newYork with name := "US/Eastern" },
    ⟨"Europe/London", -75, ZoneTable.london, some (Zone.european 0)⟩,
    ⟨"Asia/Tokyo", 33539, ZoneTable.tokyo, none⟩,
    ⟨"Asia/Kolkata", 21208, ZoneTable.kolkata, none⟩,
    ⟨"Australia/Sydney", 36292, ZoneTable.sydney, some (Zone.southAustralian 36000)⟩,
    .fixed "Etc/GMT+5" (-18000)]

/-- The zone with a name, capital and small letters being different. -/
def zones : Zones := fun name => knownZones.find? (·.name == name)

end VolumeWatch.Command
