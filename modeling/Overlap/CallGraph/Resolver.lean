/-
  The functions that call sites run.

  The callee of a site is the function it names if there is one; otherwise the
  one that a profile saw there; otherwise the only one in the call graph.  Only
  functions with a body count.

  A resolver keeps the callees it has found, and a table of the functions by
  runtime name, which it makes when it first needs it.  The order in which it
  meets the functions then is not fixed.

  * `Program.nameTable` is the table of the functions with a body;
  * `Resolver.functionByName` and `Resolver.resolveCallee` answer with what has
    been found before, and `Resolver.reply` any question;
  * `Resolver.callee` is the callee of a site without earlier questions.
-/
import Std.Data.HashMap
import Overlap.CallGraph.Basic
import Overlap.Profile.Basic

namespace Overlap

open Ssa

namespace Ssa.Program

variable (P : Program)

/-- Enters a function with a body into a table under its runtime name. A function of that name
    which is already there stays, unless only the new one is declared in a source. -/
def enterName (table : Std.HashMap String Nat) (f : Nat) : Std.HashMap String Nat :=
  if P.hasBody f then
    match table[P.runtimeName f]? with
    | none => table.insert (P.runtimeName f) f
    | some g =>
      if !P.isDeclared g && P.isDeclared f then table.insert (P.runtimeName f) f else table
  else table

/-- The functions with a body by runtime name, where `order` enumerates the functions. -/
def nameTable (order : List Nat) : Std.HashMap String Nat := order.foldl P.enterName ∅

end Ssa.Program

/-- What the callees of call sites depend on. -/
structure Resolver (τ : Type) where
  program : Program
  profile : Option (Profile τ)
  graph : Option CallGraph
  /-- The functions of the program in the order in which they are met. -/
  order : List Nat
  order_perm : order.Perm program.allFunctions

/-- What a resolver has found so far: the functions by name, if they were asked for, and the
    callees of sites. -/
structure ResolverMemo where
  byName : Option (Std.HashMap String Nat)
  resolved : Std.HashMap Loc (Option Nat)

/-- Nothing has been found. -/
def ResolverMemo.empty : ResolverMemo := ⟨none, ∅⟩

namespace Resolver

variable {τ : Type}

/-- The resolver that meets the functions by number. -/
def ofProgram (P : Program) (profile : Option (Profile τ)) (graph : Option CallGraph) :
    Resolver τ := ⟨P, profile, graph, P.allFunctions, .refl _⟩

variable (R : Resolver τ)

/-- The function with a body that has a runtime name. -/
def functionByName (name : String) (memo : ResolverMemo) : Option Nat × ResolverMemo :=
  let table := match memo.byName with
    | some table => table
    | none => R.program.nameTable R.order
  (table[name]?, { memo with byName := some table })

/-- The name of the function that the profile saw called at a site. -/
def concreteCallee (site : Loc) : Option String :=
  R.profile.bind fun p => p.concreteCallee R.program site

/-- The function with a body that the profile saw called at a site. -/
def profiledCallee (site : Loc) (memo : ResolverMemo) : Option Nat × ResolverMemo :=
  match R.concreteCallee site with
  | some name => R.functionByName name memo
  | none => (none, memo)

/-- Finds the function with a body called at a site. The callee a site names is not resolved by
    other means if it has no body, and calls to builtins are never resolved. -/
def resolve (site : Loc) (memo : ResolverMemo) : Option Nat × ResolverMemo :=
  match R.program.call? site with
  | none => (none, memo)
  | some call =>
    if call.builtin?.isSome then (none, memo)
    else match R.program.staticCallee? call with
      | some f => (if R.program.hasBody f then some f else none, memo)
      | none =>
        let (profiled, memo) := R.profiledCallee site memo
        (profiled.or (R.graph.bind fun g => g.uniqueCallee R.program site), memo)

/-- The function with a body called at a site; each site is resolved once. -/
def resolveCallee (site : Loc) (memo : ResolverMemo) : Option Nat × ResolverMemo :=
  match memo.resolved[site]? with
  | some f => (f, memo)
  | none =>
    let (f, memo) := R.resolve site memo
    (f, { memo with resolved := memo.resolved.insert site f })

/-- A question to a resolver. -/
inductive Request where
  | callee (site : Loc)
  | function (name : String)
deriving DecidableEq, Repr

/-- The answer to a question, and what has been found afterwards. -/
def reply : Request → ResolverMemo → Option Nat × ResolverMemo
  | .callee site => R.resolveCallee site
  | .function name => R.functionByName name

/-- The function with a body called at a site, without earlier questions. -/
def callee (site : Loc) : Option Nat := (R.resolveCallee site .empty).1

end Resolver

end Overlap
