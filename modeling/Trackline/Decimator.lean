import Trackline.Earth
import Trackline.Geometry

/-! Thinning a track while it grows. Every `stride`-th point since the last flush is
kept and joined to the one kept before; a flush joins the latest point as well and
goes on from there, so that the pieces of a track form one chain. -/
namespace Trackline

structure Decimator where
  stride : Nat
  stride_pos : 0 < stride
  style : Option String := none
  span : Option TimeSpan := none
  current : Option Point := none
  /-- The point that the next segment starts at. -/
  anchor : Option Point := none
  /-- Both ends of each segment since the last flush. -/
  pending : Array Point := #[]
  /-- Points since the last flush; the very first point does not count. -/
  sinceFlush : Nat := 0
  /-- Whether the latest point ended a segment. A flush leaves it as it is. -/
  kept : Bool := false
  total : Nat := 0
  deriving DecidableEq

namespace Decimator

def new (stride : Nat) : Except Error Decimator :=
  if h : 0 < stride then .ok { stride, stride_pos := h } else .error .strideZero

/-- Of a sampling nothing but the stride counts, and only that is looked at. -/
def ofSampling (sampling : Sampling) : Except Error Decimator := new sampling.stride

def push (d : Decimator) (p : Point) : Decimator :=
  let d := { d with total := d.total + 1, current := some p }
  match d.anchor with
  | none => { d with anchor := some p, kept := false }
  | some anchor =>
    let d := { d with sinceFlush := d.sinceFlush + 1 }
    if d.sinceFlush % d.stride = 0 then
      { d with pending := (d.pending.push anchor).push p, anchor := some p, kept := true }
    else { d with kept := false }

def extend (d : Decimator) (points : List Point) : Decimator := points.foldl push d

def hasPending (d : Decimator) : Bool := 0 < d.sinceFlush || !d.pending.isEmpty

def pendingSegments (d : Decimator) : Nat := d.pending.size / 2

/-- The ends of the segments of a flush: of those that wait, and of one to the latest
point unless that point was kept. -/
def flushed (d : Decimator) (anchor current : Point) : Array Point :=
  if d.kept then d.pending else (d.pending.push anchor).push current

/-- Makes a placemark of what came since the last flush. Without anything new there
is none, and nothing changes. -/
def take (d : Decimator) : Logged (Option Placemark) × Decimator :=
  if d.hasPending then
    match d.anchor, d.current with
    | some anchor, some current =>
      let points := d.flushed anchor current
      let placemark : Placemark :=
        { style := d.style, span := d.span, geometry := .track ⟨points.toList, true, true⟩ }
      (⟨some placemark, [.flushed d.sinceFlush (points.size / 2)]⟩,
        { d with pending := #[], sinceFlush := 0, anchor := some current })
    | _, _ => (⟨none, []⟩, d)
  else (⟨none, []⟩, d)

/-- Flushes into a container, and tells whether it got a placemark. -/
def make {C : Type} (append : C → Placemark → C) (d : Decimator) (target : C) :
    Logged Bool × C × Decimator :=
  match d.take with
  | (⟨some placemark, log⟩, d) => (⟨true, log⟩, append target placemark, d)
  | (⟨none, log⟩, d) => (⟨false, log⟩, target, d)

end Decimator
end Trackline
