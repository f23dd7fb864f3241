import Campaign.Plan.Sale

/-!
# Incubation

The overlord opens incubation and waits until that is on chain; the test accounts feed each other's
origins of shell in two rounds; then hatch times are shortened.
-/

namespace Campaign.Plan

variable {τ : Type}

/-- Who feeds which origin of shell, in rounds. -/
def feedingRounds : List (List (String × Int)) := [
  [("root", 0), ("user", 0), ("charlie", 1), ("david", 2), ("eve", 3), ("ferdie", 4)],
  [("root", 5), ("user", 1), ("charlie", 3), ("david", 8), ("eve", 2), ("ferdie", 10)]]

/-- Which hatch times are shortened: collection, number, seconds. -/
def incubationReductions : List (Int × Int × Int) := [
  (1, 1, 10800), (1, 0, 7200), (1, 3, 3600), (1, 2, 2400), (1, 0, 2400), (1, 4, 1400),
  (1, 5, 1400), (1, 8, 1400), (1, 10, 1400)]

/-- The phases of the incubation. -/
def incubation (pallets : Pallets) (collection : Value) : List (Phase τ) := [
  { name := "Enabling the Incubation Process"
    steps := [
      call "overlord" pallets.incubation "set_can_start_incubation_status"
        [("status", .bool true)],
      wait "overlord"] },
  { name := "Sending food among accounts"
    steps := inRounds (wait "root") (feedingRounds.map fun round => round.map
      fun (r, nft) => .submit (feed pallets r collection (.int nft))) },
  { name := "Update Incubation Times"
    steps := [.submit (updateIncubationTime pallets (incubationReductions.map
      fun (c, nft, seconds) => ⟨.int c, .int nft, .int seconds⟩))] }]

end Campaign.Plan
