import Trackline.Kml
import Trackline.Shape

/-! What can be asked of a workspace, and what it answers. -/
namespace Trackline

inductive Place where
  | root
  | list
  | nowhere
  | folder (index : Nat)
  deriving DecidableEq

inductive Sketch where
  | segment (style : String) (a b : Point) (name : Option String)
  | box (style : String) (northEast southWest : Point)
  | polygon (style : String) (points : List Point) (name : Option String)
  | circle (earth : Earth) (style : String) (center : Point) (radius : Float) (segments : Nat)
      (name : Option String)
  | sampledCircle (sampling : Sampling) (style : String) (center : Point) (radius : Float)
      (name : Option String)
  | polyline (style : String) (points : List Point) (stride : Nat)
  /-- A geometry as it is, the span in seconds. -/
  | plain (geometry : Geometry) (name style : Option String) (span : Option (Int × Int))

structure TrackSketch where
  name : Option String := none
  style : Option String := none
  span : Option (Int × Int) := none
  points : List Point

inductive Command where
  | documentFlags (visible opened : Option Bool)
  | addFolder (name : String) (visible opened : Bool)
  | folderFlags (index : Nat) (visible opened : Option Bool)
  | define (tag : String) (kind : StyleKind)
  | resolve (tag : String)
  | draw (sketch : Sketch) (place : Place)
  | tracks (tracks : List TrackSketch) (stride : Nat) (place : Place)
  | extent
  | document
  | list
  | kml
  | path (tags : List String)
  | newTrip (id : String) (stride : Nat) (style : Option String)
  | sampledTrip (id : String) (sampling : Sampling) (style : Option String)
  | copyTrip (id copy : String)
  | tripStyle (id style : String)
  | tripSpan (id : String) (start stop : Int)
  | clearTripSpan (id : String)
  | extendTrip (id : String) (points : List Point)
  | trip (id : String)
  | takeTrip (id : String)
  | flushTrip (id : String) (place : Place)

inductive Refusal where
  | failed (error : Error)
  | spanOutOfRange
  | noFolder
  | noTrip
  deriving DecidableEq

structure TripState where
  total : Nat
  pending : Nat
  hasPending : Bool
  deriving DecidableEq

inductive Answer where
  | done
  | flags (visible opened : Bool)
  | index (index : Nat)
  | defined (tag url : String) (count : Nat)
  | resolved (style : Option Style) (contains : Bool) (count : Nat) (isEmpty : Bool)
  | placemark (placemark : Placemark)
  | appended (count : Nat)
  | extent (extent : Option Extent)
  | document (document : Document)
  | list (placemarks : List Placemark)
  | kml (text : String)
  | node (element : Option Element)
  | stride (stride : Nat)
  | trip (state : TripState)
  | taken (state : TripState) (placemark : Option Placemark)
  | flushed (state : TripState) (appended : Bool)

end Trackline
