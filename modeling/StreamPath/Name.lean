/-!
# Expanded names

A name is an optional namespace URI and a local part. A name without a namespace and one whose
namespace is the empty string are displayed alike but are different names.
-/

namespace StreamPath

/-- The name of an element, an attribute, a variable or a function. -/
structure Name where
  /-- The namespace URI; `none` for a name in no namespace. -/
  uri : Option String
  /-- The part after the namespace. -/
  localPart : String
deriving DecidableEq, Repr, Inhabited

namespace Name

def unqualified (localPart : String) : Name := ⟨none, localPart⟩

def qualified (uri localPart : String) : Name := ⟨some uri, localPart⟩

/-- The namespace as text: empty for a name in no namespace. -/
def uriText (name : Name) : String := name.uri.getD ""

/-- The written form: the namespace in braces after a `Q`, if there is one to show. -/
def display (name : Name) : String :=
  if name.uriText = "" then name.localPart else "Q\x7b" ++ name.uriText ++ "\x7d" ++ name.localPart

instance : ToString Name := ⟨display⟩

@[simp] theorem uriText_unqualified (localPart : String) : (unqualified localPart).uriText = "" :=
  rfl

@[simp] theorem display_unqualified (localPart : String) :
    (unqualified localPart).display = localPart := rfl

end Name

end StreamPath
