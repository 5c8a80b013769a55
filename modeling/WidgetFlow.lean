import WidgetFlow.Main
import WidgetFlow.Proofs.Confluence
import WidgetFlow.Proofs.CustomViews
import WidgetFlow.Proofs.Endings
import WidgetFlow.Proofs.FlowShape
import WidgetFlow.Proofs.Graph.Sessions
import WidgetFlow.Proofs.Hierarchy
import WidgetFlow.Proofs.Identifiers
import WidgetFlow.Proofs.LocalTypes
import WidgetFlow.Proofs.MenuItems
import WidgetFlow.Proofs.Mirroring
import WidgetFlow.Proofs.Project.DefaultResources
import WidgetFlow.Proofs.Report
import WidgetFlow.Proofs.Resource.Conversion
import WidgetFlow.Proofs.Resource.IdTables
import WidgetFlow.Proofs.Resource.MenuIds
import WidgetFlow.Proofs.Resource.Numbers
import WidgetFlow.Proofs.Resource.References
import WidgetFlow.Proofs.Resource.Strings
import WidgetFlow.Proofs.Statements.Reading
import WidgetFlow.Proofs.WindowBuilding
import WidgetFlow.Proofs.Wiring.Allocations
import WidgetFlow.Proofs.Wiring.Calls
