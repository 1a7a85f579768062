import DalvikLinkage.Linkage.Report
import DalvikLinkage.Repository.Hierarchy

/-!
# The linkage of a repository

A repository as a table of symbols, and the report on it.
-/
namespace DalvikLinkage.Repository

/-- What a class of the repository answers to references. -/
def exposure (r : Repository) (c : ClassDef) : Exposure where
  hasField := r.hasField c
  hasMethod := r.hasMethod c

/-- The repository's references and classes. -/
def symbolTable (r : Repository) : SymbolTable where
  fieldReferences := r.fieldReferences
  methodReferences := r.methodReferences
  resolve? t := (r.find? t).map r.exposure

/-- The members that the repository's references miss. -/
def report (r : Repository) : Report :=
  Report.of r.symbolTable

end DalvikLinkage.Repository
