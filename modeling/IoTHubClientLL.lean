import IoTHubClientLL.Types
import IoTHubClientLL.Api
import IoTHubClientLL.Scan
import IoTHubClientLL.ScanSpec
import IoTHubClientLL.Drain
import IoTHubClientLL.SendSpec
import IoTHubClientLL.System
import IoTHubClientLL.Delivery
import IoTHubClientLL.Expiry
import IoTHubClientLL.Instance
import IoTHubClientLL.ConnectionString
import IoTHubClientLL.Handles
import IoTHubClientLL.Reentrant
import IoTHubClientLL.ReentrantRuns
import IoTHubClientLL.ReentrantDelivery
import IoTHubClientLL.ReentrantInstance
import IoTHubClientLL.Confirmations
import IoTHubClientLL.ReentrantReturns
import IoTHubClientLL.Heap
