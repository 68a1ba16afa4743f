import Refit.Syntax.Parse
import Refit.Text.Classes
import Refit.Text.Utf8

namespace Refit

open Syntax

structure Source where
  path : String
  text : String
  tree : Node

structure SourceFault where
  path : String
  deriving DecidableEq

def SourceFault.message (fault : SourceFault) : String :=
  "Syntax error in " ++ fault.path ++ " at line ?, column ?"

namespace Source

def dialectOf (path : String) : Grammar.Dialect :=
  if ".ts".toList.isSuffixOf (Text.lower path).toList then .plain else .markup

def parse (path text : String) : Except SourceFault Source :=
  match parse? (dialectOf path) text.toList with
  | some tree => .ok ⟨path, text, tree⟩
  | none => .error ⟨path⟩

def sliceBytes (bytes : List UInt8) (span : Span) : List UInt8 :=
  (bytes.drop span.start).take (span.stop - span.start)

def slice (source : Source) (span : Span) : String :=
  Text.Utf8.decodeLossy (sliceBytes (Text.Utf8.encode source.text) span)

def textOf (source : Source) (node : Node) : String := source.slice node.span

def textOf? (source : Source) (node : Option Node) : String :=
  match node with
  | some node => source.textOf node
  | none => ""

def nodes (source : Source) : List Node := source.tree.walk

end Source
end Refit
