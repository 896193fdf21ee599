import ThreadRegions.Diagnostic.Render
import ThreadRegions.Scope.Table

/-!
# Listing a symbol table

A table of all scopes and their symbols in aligned columns, for a reader.

## Main Definitions

* `Symbol.listing`: the line of one symbol
* `Table.listing`: the lines of all scopes
-/

namespace ThreadRegions

/-- The line of a symbol, `indent` levels to the right. -/
def Symbol.listing (s : Symbol) (indent : Nat) : String :=
  let margin := String.ofList (List.replicate (2 * indent) ' ')
  let place := String.ofList (padLeft 4 ' ' (toString s.offset).toList)
  margin ++ padRight 16 s.name ++ " " ++ padRight 8 s.kind.name ++ " " ++
    padRight 24 s.type.text ++ " offset " ++ place ++
    (if s.qualifier = .default then "" else " " ++ s.qualifier.text) ++
    (if s.isFunction then s!" [{s.modifier.text} / declared {s.declared.text}]" else "") ++
    (if s.state = .normal then "" else " " ++ s.state.name) ++
    (if s.isFrozen then s!" frozen x{s.freezeCount}" else "") ++ "\n"

/-- The line of a symbol and, below it, those of its members. -/
def Table.symbolListing (t : Table) (id : SymbolId) : String :=
  let s := t.symbol id
  s.listing 1 ++ String.join (s.members.map fun member => (t.symbol member).listing 2)

/-- The lines of all scopes with their symbols. -/
def Table.listing (t : Table) : String :=
  String.join <| t.scopes.toList.zipIdx.map fun (s, number) =>
    s!"scope {number} (depth {s.depth}, region {s.region}, " ++
      s!"locals {s.locals}, params {s.params})\n" ++
      String.join (s.symbols.map t.symbolListing)

end ThreadRegions
