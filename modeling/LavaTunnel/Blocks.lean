import LavaTunnel.CInt

/-!
# `LavaTunnel.Blocks` — block names (`getBid` of `build.c`)
-/

namespace LavaTunnel

/-- The texts that name a block, and its id. The first seven and air can be given by number, too. -/
def blockNames : List (List String × UInt8) :=
  [(["stone", "1"], 1), (["grass", "2"], 2), (["dirt", "3"], 3), (["cobblestone", "4"], 4),
    (["wood", "5"], 5), (["tree", "6"], 6), (["sand", "12"], 12), (["gravel"], 13), (["goldore"], 14),
    (["ironore"], 15), (["coal"], 16), (["trunk"], 17), (["leaves"], 18), (["sponge"], 19),
    (["glass"], 20), (["red"], 21), (["orange"], 22), (["yellow"], 23), (["lightgreen"], 24),
    (["green"], 25), (["aqua"], 26), (["cyan"], 27), (["blue"], 28), (["purple"], 29), (["indigo"], 30),
    (["violet"], 31), (["magenta"], 32), (["pink"], 33), (["black"], 34), (["grey"], 35),
    (["white"], 36), (["rose"], 38), (["redmushroom"], 39), (["brownmushroom"], 40), (["gold"], 41),
    (["iron"], 42), (["stair"], 44), (["brick"], 45), (["tnt"], 46), (["mossycobblestone"], 48),
    (["obsidian"], 49), (["cobblestoneslab"], 50), (["rope"], 51), (["sandstone"], 52), (["snow"], 53),
    (["fire"], 54), (["lightpink"], 55), (["forestgreen"], 56), (["brown"], 57), (["deepblue"], 58),
    (["turquoise"], 59), (["ice"], 60), (["ceramictile"], 61), (["magma"], 62), (["pillar"], 63),
    (["crate"], 64), (["stonebrick"], 65), (["air", "0"], 0)]

/-- Take a blockname and return its block ID, if a block ID is given it will return the same BID. A text
    that matches nothing leaves `bid` at its initial 0. -/
def getBid (block : List UInt8) : UInt8 :=
  match blockNames.find? (fun e => (e.1.map ascii).contains block) with
  | some e => e.2
  | none => 0

/-- Every id of the list is below the `-1` of an unknown block. -/
theorem getBid_ne (block : List UInt8) : getBid block ≠ 255 := by
  have hall : ∀ e ∈ blockNames, e.2 ≠ 255 := by decide
  unfold getBid
  cases h : blockNames.find? (fun e => (e.1.map ascii).contains block) with
  | none => decide
  | some e => exact hall e (List.mem_of_find?_eq_some h)

end LavaTunnel
