import Covenant.World

/-!
# Types of the sample program

A small program with structures, named types and methods to put under contract.
-/

set_option autoImplicit false

namespace Covenant.Sample

def point : HostType := .named "host.Point" .struct

def counter : HostType := .named "host.Counter" .struct

def tally : HostType := .named "host.Tally" .struct

def secret : HostType := .named "host.Secret" .struct

def shape : HostType := .named "host.Shape" .interface

def square : HostType := .named "host.Square" .struct

def caller : HostType := .named "host.Caller" .struct

def myInt : HostType := .named "host.MyInt" .wordInt

def celsius : HostType := .named "host.Celsius" .double

def nameText : HostType := .named "host.Name" .text

def nameList : HostType := .named "host.Names" (.slice .text)

def flag : HostType := .named "host.Flag" .bool

def types : List HostType :=
  [point, counter, tally, secret, shape, square, caller, myInt, celsius, nameText, nameList, flag]

def fields (type : HostType) : List Field :=
  if type = point then [⟨"X", true, false, .double⟩, ⟨"Y", true, false, .double⟩]
  else if type = counter then [⟨"N", true, false, .wordInt⟩]
  else if type = tally then [⟨"Counter", true, true, counter⟩, ⟨"Label", true, false, .text⟩]
  else if type = secret then [⟨"Open", true, false, .wordInt⟩, ⟨"hidden", false, false, .wordInt⟩]
  else if type = square then [⟨"Side", true, false, .double⟩]
  else []

def area : Text × Signature := ("Area", ⟨[], false, [.double], false⟩)

/-- The methods that every value of a type has, directly or through a pointer. -/
def valueMethods (type : HostType) : List (Text × Signature) :=
  if type = point then
    [("Norm2", ⟨[], false, [.double], false⟩), ("Scale", ⟨[.double], false, [point], false⟩),
      ("Pair", ⟨[], false, [.double], true⟩)]
  else if type = counter || type = tally then
    [("Add", ⟨[.wordInt], false, [counter], false⟩)]
  else if type = square || type = shape then [area]
  else if type = caller then [("Call", ⟨[], false, [.wordInt], false⟩)]
  else []

def pointerMethods (type : HostType) : List (Text × Signature) :=
  if type = counter || type = tally then [("Bump", ⟨[.wordInt], false, [.wordInt], false⟩)]
  else []

def methods : HostType → List (Text × Signature)
  | .pointer target =>
    if target.isInterface then [] else valueMethods target ++ pointerMethods target
  | type => valueMethods type

end Covenant.Sample
