import Mathlib

/-!
# Positions

`Position` (`game/movement/position.hpp`) and the constants of the map (`map/map_const.hpp`).

## Main definitions

* `Position` — a position on the map.
-/

namespace TiabloServer

def MAP_MAX_LAYERS : ℕ := 16
def MAP_INIT_SURFACE_LAYER : ℤ := 7
def MAP_LAYER_VIEW_LIMIT : ℤ := 2
def MAP_MAX_VIEW_PORT_X : ℤ := 11
def MAP_MAX_VIEW_PORT_Y : ℤ := 11

structure Position where
  x : UInt16
  y : UInt16
  z : UInt8
  deriving DecidableEq

end TiabloServer
