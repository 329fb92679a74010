/-
# Databases

A database is a compiler whose model and configuration have been checked, with a cache of the plans
it has made.
-/
import DocQuery.PlanKey

namespace DocQuery

/-- A plan with a number that tells apart the compilations of one database. -/
structure CompiledPlan where
  serial : Nat
  plan : Plan

structure Database where
  compiler : Compiler
  cache : Cache PlanKey CompiledPlan

namespace Database

def model (d : Database) : Model := d.compiler.model

def config (d : Database) : Config := d.compiler.config

/-- Opens a database on a valid model and a valid configuration. -/
def ofCompiler (c : Compiler) : Except QueryError Database := do
  c.model.validate
  c.config.validate
  return ⟨c, .ofCapacity c.config.planCacheCapacity⟩

/-- The plan of a query, from the cache if it is there.  Every compilation is a miss first, so the
number of misses before it belongs to it alone. -/
def compile (d : Database) (shaped : ShapedQuery) : Except QueryError CompiledPlan × Database :=
  let compiled := (d.compiler.compile shaped).map (CompiledPlan.mk d.cache.misses)
  let (plan, cache) := d.cache.getOrCompute (d.compiler.key shaped) compiled
  (plan, { d with cache })

def clearCache (d : Database) : Database := { d with cache := d.cache.clear }

end Database

end DocQuery
