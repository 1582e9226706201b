import ProviderProtocol.Server.Resource
/-!
# Operations on data sources

A data source whose handler does nothing answers its configuration.
-/
namespace ProviderProtocol.Server

open Operation (answer call check decode encode found schemaOf)

def validateDataConfig (server : Server σ) (req : Wire.ConfigRequest) : StateM σ Wire.Report :=
  answer Wire.Report.mk do
    let source ← found (server.registry.dataSource req.typeName)
    let config ← configFor source.schema req.config
    return ⟨wire (← call source.validateConfig config [])⟩

def readDataSource (server : Server σ) (req : Wire.ConfigRequest) : StateM σ Wire.DataResponse :=
  answer (Wire.DataResponse.mk none) do
    let source ← found (server.registry.dataSource req.typeName)
    let schema ← schemaOf source.schema
    let config ← decode schema req.config "Config"
    let resp ← call source.read config ⟨config, []⟩
    check resp.diagnostics
    return ⟨some (← encode schema resp.state "State"), wire resp.diagnostics⟩

end ProviderProtocol.Server
