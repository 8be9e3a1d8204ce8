import ScopedLisp.Store.Bindings

/-!
# The store of frames

A frame binds names and, unless it is outermost, lies inside another frame. Frames are shared:
closures hold the number of the frame they were made in, and see what is bound there later. All
frames therefore live in one store, under numbers that never change, and nothing is ever removed.

A frame is made inside one that exists already, so outer numbers are always smaller. `chain`
walks outward along them, and a name is looked up in the first frame of the chain that binds it:

* `define` binds a name in the frame itself, whatever the chain says;
* `set?` overwrites the binding that a look-up finds, and fails where a look-up fails.

The store also counts the closures made so far; the count is the identity of the next one.
-/

namespace ScopedLisp

/-- One scope: its bindings and the scope around it. -/
structure Frame where
  bindings : Bindings
  outer : Option FrameId

/-- All frames, and the number of closures made so far. -/
structure Store where
  frames : Array Frame
  closures : ClosureId

namespace Store

/-- The store before any frame. -/
def empty : Store := ⟨#[], 0⟩

/-- The number that the next frame gets. -/
def next (s : Store) : FrameId := s.frames.size

/-- The frame around `f`; an outermost frame, or one that does not exist, has none. -/
def outer? (s : Store) (f : FrameId) : Option FrameId := s.frames[f]?.bind Frame.outer

/-- What frame `f` itself binds `name` to. -/
def binding? (s : Store) (f : FrameId) (name : String) : Option Value :=
  s.frames[f]?.bind fun frame => frame.bindings.get? name

/-- Whether frame `f` itself binds `name`. -/
def binds (s : Store) (f : FrameId) (name : String) : Bool := (s.binding? f name).isSome

/-- The frames from `f` outward. -/
def chain (s : Store) (f : FrameId) : List FrameId :=
  match s.outer? f with
  | some o => if o < f then f :: s.chain o else [f]
  | none => [f]
termination_by f

/-- The innermost frame from `f` outward that binds `name`. -/
def find? (s : Store) (f : FrameId) (name : String) : Option FrameId :=
  (s.chain f).find? fun g => s.binds g name

/-- The value of `name` as seen from frame `f`. -/
def get? (s : Store) (f : FrameId) (name : String) : Option Value :=
  (s.find? f name).bind fun g => s.binding? g name

/-- A new frame, numbered `s.next`. -/
def push (s : Store) (frame : Frame) : Store := { s with frames := s.frames.push frame }

/-- Binds `name` in frame `f` itself, in place of what it binds it to. -/
def define (s : Store) (f : FrameId) (name : String) (value : Value) : Store :=
  { s with frames := s.frames.modify f fun frame =>
      { frame with bindings := frame.bindings.insert name value } }

/-- Overwrites the binding of `name` that is seen from frame `f`, if there is one. -/
def set? (s : Store) (f : FrameId) (name : String) (value : Value) : Option Store :=
  (s.find? f name).map fun g => s.define g name value

/-- What a root frame with number `home` binds: every primitive under its name, and `pi`. -/
def rootBindings (home : FrameId) : Bindings :=
  Primitive.all.map (fun p => (p.name, .primitive p home)) ++
    [("pi", .float (.ofBits 0x400921fb54442d18))]

/-- A new outermost frame with the primitives. -/
def pushRoot (s : Store) : Store := s.push ⟨rootBindings s.next, none⟩

/-- A new outermost frame that binds nothing. -/
def pushEmpty (s : Store) : Store := s.push ⟨[], none⟩

/-- A new frame inside `outer` that binds nothing. -/
def pushChild (s : Store) (outer : FrameId) : Store := s.push ⟨[], some outer⟩

/-- A new frame inside `outer` that binds `params` to `args` pair by pair. -/
def pushNested (s : Store) (params : List String) (args : List Value) (outer : FrameId) : Store :=
  s.push ⟨.ofPairs params args, some outer⟩

/-- A closure over frame `home`, unequal to every closure made before. -/
def makeClosure (s : Store) (params : List String) (body : Value) (home : FrameId) :
    Value × Store :=
  (.closure s.closures params body home, { s with closures := s.closures + 1 })

end Store

end ScopedLisp
