import BslInsight.Catalog.Availability
import BslInsight.Catalog.Common.Methods

/-!
# The global context of the platform
-/

namespace BslInsight.Catalog.Bsl

def ownMethods : Members := gather [
  under Segment.conversions "
  XMLСтрока/XMLString(Значение): Строка
  - Получает XML-представление значения простого типа." everywhere,
  under Segment.dialogs "
  Вопрос/DoQueryBox(ТекстВопроса: Строка, Кнопки: РежимДиалогаВопрос,
  Таймаут?: Число): КодВозвратаДиалога
  - Задает модальный вопрос пользователю.
  Предупреждение/DoMessageBox(ТекстПредупреждения: Строка, Таймаут?: Число, Заголовок?: Строка)
  - Выводит на экран модальное окно предупреждения." onDesktop,
  under "Процедуры и функции работы с журналом регистрации" "
  ЗаписьЖурналаРегистрации/WriteLogEvent(ИмяСобытия: Строка, Уровень?: УровеньЖурналаРегистрации,
  ОбъектМетаданных?, Данные?, Комментарий?: Строка)
  - Записывает событие в журнал регистрации." onServer,
  under Segment.other "
  ЗаполнитьЗначенияСвойств/FillPropertyValues(Приемник, Источник, СписокСвойств?: Строка,
  ИсключаяСвойства?: Строка)
  - Копирует значения свойств одного объекта в другой.
  ПредопределенноеЗначение/PredefinedValue(ПолноеИмяПредопределенногоЗначения: Строка)
  - Получает ссылку на предопределенное значение.
  > Ссылка на предопределенный элемент.
  Сообщить/Message(ТекстСообщения: Строка, Статус?: СтатусСообщения)
  * ТекстСообщения Текст выводимого сообщения.
  * Статус Статус сообщения.
  - Выводит сообщение пользователю." everywhere,
  under Segment.environment "
  ИмяПользователя/UserName: Строка
  - Получает имя текущего пользователя." everywhere,
  under Segment.dialogs "
  ПоказатьВопрос/ShowQueryBox(ОписаниеОповещенияОЗавершении: ОписаниеОповещения,
  ТекстВопроса: Строка, Кнопки: РежимДиалогаВопрос, Таймаут?: Число)
  - Показывает окно вопроса.
  ПоказатьПредупреждение/ShowMessageBox(ОписаниеОповещенияОЗавершении?: ОписаниеОповещения,
  ТекстПредупреждения: Строка, Таймаут?: Число, Заголовок?: Строка)
  - Показывает окно предупреждения." onClient,
  under Segment.other "
  ПолучитьОбщийМакет/GetCommonTemplate(Имя: Строка)
  - Получает общий макет конфигурации.
  УстановитьПривилегированныйРежим/SetPrivilegedMode(Включить: Булево)
  - Включает или отключает привилегированный режим." onServer]

def methods : Members :=
  gather [Common.methods, ownMethods]

def properties : Members := gather [
  under Segment.properties "
  Метаданные/Metadata: ОбъектМетаданныхКонфигурация
  - Метаданные конфигурации.
  Справочники/Catalogs
  - Менеджер справочников.
  Документы/Documents
  - Менеджер документов.
  Перечисления/Enums
  - Менеджер перечислений.
  РегистрыСведений/InformationRegisters
  - Менеджер регистров сведений.
  РегистрыНакопления/AccumulationRegisters
  - Менеджер регистров накопления.
  Константы/Constants
  - Менеджер констант.
  Обработки/DataProcessors
  - Менеджер обработок.
  Отчеты/Reports
  - Менеджер отчетов.
  ПланыОбмена/ExchangePlans
  - Менеджер планов обмена.
  Символы/Chars
  - Специальные символы (ПС, ВК, Таб, НПП)." everywhere,
  under Segment.properties "
  ПараметрыСеанса/SessionParameters
  - Параметры сеанса." onServer]

end BslInsight.Catalog.Bsl
