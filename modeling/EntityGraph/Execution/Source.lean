import EntityGraph.Store

namespace EntityGraph

structure RecordSource (σ : Type) where
  fetchById : σ → String → String → Except SourceError (Option Record)
  fetchByKey : σ → String → String → String → Except SourceError (Option Record)
  search : σ → String → List FilterGroup → Page → Except SourceError (List Record)
  create : σ → String → Members → Except SourceError Record × σ

def StoreRules.source [RegexLibrary] (rules : StoreRules) : RecordSource Store where
  fetchById s entity id := (s.fetchById rules entity id).map (·.map Record.document)
  fetchByKey s entity field key := (s.fetchByKey rules entity field key).map (·.map Record.document)
  search s entity filter page := (s.search rules entity filter page).map (·.map Record.document)
  create s entity fields :=
    let (result, s) := Store.put rules entity fields s
    (result.map Record.document, s)

end EntityGraph
