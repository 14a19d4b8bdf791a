import SchemaCatalog.Yaml.Layout
import SchemaCatalog.Yaml.Value

namespace SchemaCatalog.Yaml

def parse (text : String) : Except Fault Json := do
  (← Document.ofTokens (← tokens text.toList)).toJson

end SchemaCatalog.Yaml
